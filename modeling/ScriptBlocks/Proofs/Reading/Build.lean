import ScriptBlocks.Proofs.Reading.Construction
import ScriptBlocks.Proofs.Reading.Frame

/-!
# What building comes to

Building blocks for a match gives a tree of new blocks or leaves everything as it was, whatever the
texts of the arguments, and each block that is created on the way takes one id.

## Main definitions

* `Workspace.attachArgumentCreations`, `Workspace.constructCreations`, `Workspace.buildCreations` —
  how many blocks are created on the way, those that are discarded again included
* `Workspace.Attaches` — what a way of attaching arguments has to keep to

## Main statements

* `Workspace.attaches_attachArgument` — reading an argument keeps to it, at every depth
* `Workspace.attachArgument_spec` — what it is that a slot took, if it took anything
* `Workspace.construct_spec`, `Workspace.build_spec` — a tree of new blocks, or nothing
-/

namespace ScriptBlocks.Workspace

/-! ### Counting -/

/-- How many blocks are created for a block of a form: none if there is no such form. -/
def formCreations (v : Vocabulary) (form : String) : Nat :=
  match v.get form with
  | .ok _ => 1
  | .error _ => 0

/-- How many blocks are created when arguments are attached one after the other. -/
def attachAllCreations (attach : Workspace → String → String → Attempt Unit)
    (creations : Workspace → String → String → Nat) : List (String × String) → Workspace → Nat
  | [], _ => 0
  | (slot, text) :: arguments, w =>
    creations w slot text +
      match attach w slot text with
      | (.ok (), w) => attachAllCreations attach creations arguments w
      | (.error _, _) => 0

/-- How many blocks are created for the field values of a form. -/
def constructCreations (v : Vocabulary)
    (attach : Workspace → BlockId → String → String → Attempt Unit)
    (creations : Workspace → BlockId → String → String → Nat) (w : Workspace) (form : Form)
    (fields : Fields) : Nat :=
  match form.construction with
  | .bare => formCreations v form.name
  | .withArguments =>
    let (arguments, fields) := takeArguments (form.template.valueSlots.map Prod.fst) fields
    match w.create v form.name fields with
    | .error _ => 0
    | .ok (id, w) => 1 + attachAllCreations (attach · id) (creations · id) arguments w
  | .literal slot literal _ fallback =>
    match w.create v form.name (fields.erase slot) with
    | .error _ => 0
    | .ok _ =>
      match (fields.find? slot).or fallback with
      | none => 1
      | some _ => 1 + formCreations v literal

/-- How many blocks are created when a text is read into a slot. -/
def attachArgumentCreations (v : Vocabulary) :
    Nat → Workspace → BlockId → String → String → Nat
  | 0, _, _, _, _ => 0
  | depth + 1, w, _, _, text =>
    let text := Expression.bare text
    if text = "" then 0
    else match v.expressionFor text with
      | none => 0
      | some (form, c) =>
        match form.readFields c with
        | .error _ => 0
        | .ok fields =>
          constructCreations v (attachArgument v depth) (attachArgumentCreations v depth) w form
            fields

/-- How many blocks are created for a match of a form in a line. -/
def buildCreations (v : Vocabulary) (w : Workspace) (line : String) (form : Form) (c : Capture) :
    Nat :=
  match form.readFields c with
  | .error _ => 0
  | .ok fields =>
    constructCreations v (attachArgument v line.length) (attachArgumentCreations v line.length) w
      form fields

/-- How many blocks are created when the slots of a new block are filled. -/
def fillCreations (v : Vocabulary) (attach : Workspace → BlockId → String → String → Attempt Unit)
    (creations : Workspace → BlockId → String → String → Nat) (w : Workspace) (id : BlockId)
    (form : Form) (fields : Fields) : Nat :=
  match form.construction with
  | .bare => 0
  | .withArguments =>
    attachAllCreations (attach · id) (creations · id)
      (takeArguments (form.template.valueSlots.map Prod.fst) fields).1 w
  | .literal slot literal _ fallback =>
    match (fields.find? slot).or fallback with
    | none => 0
    | some _ => formCreations v literal

variable {v : Vocabulary} {w w' : Workspace} {id p : BlockId} {b : Block} {form slot text : String}
  {fields : Fields}

theorem get_of_create_eq_ok (h : w.create v form fields = .ok (id, w')) :
    ∃ f, v.get form = .ok f ∧ formCreations v form = 1 := by
  obtain ⟨f, hf, -⟩ := create_eq_ok.1 h
  exact ⟨f, hf, by rw [formCreations, hf]⟩

theorem formCreations_of_create_eq_error {e : Error} (h : w.create v form fields = .error e) :
    formCreations v form = 0 := by
  rw [formCreations]
  cases hf : v.get form with
  | error => rfl
  | ok f =>
    rw [create, hf] at h
    cases h

section

variable {attach : Workspace → BlockId → String → String → Attempt Unit}
  {creations : Workspace → BlockId → String → String → Nat} {f : Form}

theorem constructCreations_of_create_error {e : Error}
    (h : w.create v f.name (f.keptFields fields) = .error e) :
    constructCreations v attach creations w f fields = 0 := by
  rw [Form.keptFields] at h
  rw [constructCreations]
  cases hconstruction : f.construction with
  | bare =>
    rw [hconstruction] at h
    exact formCreations_of_create_eq_error h
  | withArguments | literal =>
    rw [hconstruction] at h
    simp only [h]

theorem constructCreations_of_create_ok
    (h : w.create v f.name (f.keptFields fields) = .ok (id, w')) :
    constructCreations v attach creations w f fields =
      1 + fillCreations v attach creations w' id f fields := by
  rw [Form.keptFields] at h
  rw [constructCreations, fillCreations]
  cases hconstruction : f.construction with
  | bare =>
    obtain ⟨-, -, hone⟩ := get_of_create_eq_ok h
    exact hone
  | withArguments =>
    rw [hconstruction] at h
    simp only [h]
  | literal slot literal field fallback =>
    rw [hconstruction] at h
    simp only [h]
    cases (fields.find? slot).or fallback with
    | none => rfl
    | some value => rfl

theorem constructCreations_of_takeArguments {arguments : List (String × String)} {rest : Fields}
    (hconstruction : f.construction = .withArguments)
    (htake : takeArguments (f.template.valueSlots.map Prod.fst) fields = (arguments, rest))
    (hcreate : w.create v f.name rest = .ok (id, w')) :
    constructCreations v attach creations w f fields =
      1 + attachAllCreations (attach · id) (creations · id) arguments w' := by
  rw [constructCreations, hconstruction]
  simp only [htake, hcreate]

end

theorem attachArgumentCreations_succ (v : Vocabulary) (depth : Nat) (w : Workspace) (p : BlockId)
    (slot text : String) :
    attachArgumentCreations v (depth + 1) w p slot text =
      match v.argument? text with
      | none => 0
      | some (.error _) => 0
      | some (.ok (form, given)) =>
        constructCreations v (attachArgument v depth) (attachArgumentCreations v depth) w form
          given := by
  rw [attachArgumentCreations, Vocabulary.argument?]
  split
  · rfl
  · cases v.expressionFor (Expression.bare text) with
    | none => rfl
    | some found =>
      obtain ⟨form, c⟩ := found
      dsimp only [Option.map_some]
      cases form.readFields c with
      | error e => rfl
      | ok given => rfl

/-! ### Default literals -/

theorem createShadow_eq_error {e : Error} (h : w.createShadow v form fields = .error e) :
    w.create v form fields = .error e := by
  rw [createShadow] at h
  cases hcreate : w.create v form fields with
  | error => rw [hcreate] at h; exact h
  | ok r => rw [hcreate] at h; cases h

/-- A default literal hangs in its slot, or there is none. -/
theorem attachShadow_spec (form : String) (fields : Fields) (hw : w.Consistent) (hp : w.find? p = some b)
    (hvacant : b.valueChild slot = none) (hroom : w.Room (formCreations v form)) :
    w.Grows (attachShadow v w p slot form fields).2 p [slot] ∧
      w.Spends (attachShadow v w p slot form fields).2 (formCreations v form) := by
  have hle : p ≤ w.lastId := hw.le_lastId (contains_of_find? hp)
  rw [attachShadow]
  cases hcreate : w.createShadow v form fields with
  | error e =>
    rw [formCreations_of_create_eq_error (createShadow_eq_error hcreate)]
    exact ⟨(Leaves.refl hw).grows p _ hle, .zero w⟩
  | ok r =>
    obtain ⟨literal, w₁⟩ := r
    obtain ⟨w₀, hbare, rfl⟩ := createShadow_eq_ok.1 hcreate
    obtain ⟨f, hf, hone⟩ := get_of_create_eq_ok hbare
    rw [hone] at hroom ⊢
    obtain ⟨hbuilds, hspends, -⟩ := builds_create hw hf hroom hbare
    have hshadow := hbuilds.modify (inert_shadow true) fun _ => ⟨rfl, rfl⟩
    rcases hshadow.connectValue hw hp hvacant with ⟨e, hconnect⟩ | ⟨hconnect, hgrows⟩
    · simp only [hconnect]
      obtain ⟨hleaves, hdiscard⟩ := hshadow.discard hw
      exact ⟨hleaves.grows p _ hle, hspends.trans hdiscard⟩
    · simp only [hconnect]
      exact ⟨hgrows, hspends⟩

/-! ### Arguments -/

/-- A way of attaching an argument to a free slot of a block: the argument hangs in that slot
afterwards, or nothing has changed, and `creations` counts the ids that are gone. -/
def Attaches (attach : Workspace → BlockId → String → String → Attempt Unit)
    (creations : Workspace → BlockId → String → String → Nat) : Prop :=
  ∀ (w : Workspace) (p : BlockId) (b : Block) (slot text : String), w.Consistent →
    w.find? p = some b → b.valueChild slot = none →
      w.Room (creations w p slot text) →
        w.Grows (attach w p slot text).2 p [slot] ∧
          w.Spends (attach w p slot text).2 (creations w p slot text)

/-- The slots that arguments go to are distinct slots of the form. -/
theorem nodup_takeArguments (slots : List String) (fields : Fields) :
    ((takeArguments slots fields).1.map Prod.fst).Nodup ∧
      ∀ slot ∈ (takeArguments slots fields).1.map Prod.fst, fields.contains slot = true := by
  induction slots generalizing fields with
  | nil => exact ⟨.nil, fun _ h => absurd h List.not_mem_nil⟩
  | cons slot slots ih =>
    rw [takeArguments]
    cases hfind : fields.find? slot with
    | none => exact ih fields
    | some value =>
      obtain ⟨hnodup, hcontains⟩ := ih (fields.erase slot)
      have hother {s : String} (hs : s ∈ (takeArguments slots (fields.erase slot)).1.map Prod.fst) :
          s ≠ slot ∧ fields.contains s = true := by
        have hs' := hcontains s hs
        rw [← OrderedMap.find?_isSome, OrderedMap.find?_erase] at hs'
        split at hs'
        · exact nomatch hs'
        · next hne => exact ⟨hne, by rwa [OrderedMap.find?_isSome] at hs'⟩
      refine ⟨List.nodup_cons.2 ⟨fun hmem => (hother hmem).1 rfl, hnodup⟩, fun s hs => ?_⟩
      rcases List.mem_cons.1 hs with rfl | hs
      · rw [← OrderedMap.find?_isSome, hfind]
        rfl
      · exact (hother hs).2

theorem valueChild_congr {b b' : Block} (h : b'.slots.find? slot = b.slots.find? slot) :
    b'.valueChild slot = b.valueChild slot := by
  rw [Block.valueChild, Block.valueChild, h]

/-- Arguments for distinct free slots hang in those slots afterwards. -/
theorem attachAll_spec {attach : Workspace → BlockId → String → String → Attempt Unit}
    {creations : Workspace → BlockId → String → String → Nat} (hattach : Attaches attach creations)
    (arguments : List (String × String)) (hnodup : (arguments.map Prod.fst).Nodup)
    (hw : w.Consistent) (hp : w.find? p = some b)
    (hvacant : ∀ slot ∈ arguments.map Prod.fst, b.valueChild slot = none)
    (hroom : w.Room (attachAllCreations (attach · p) (creations · p) arguments w)) :
    w.Grows (attachAll (attach · p) arguments w).2 p (arguments.map Prod.fst) ∧
      w.Spends (attachAll (attach · p) arguments w).2
        (attachAllCreations (attach · p) (creations · p) arguments w) := by
  have hcontains : w.contains p = true := contains_of_find? hp
  induction arguments generalizing w b with
  | nil =>
    exact ⟨(Leaves.refl hw).grows p _ (hw.le_lastId hcontains), .zero w⟩
  | cons argument arguments ih =>
    obtain ⟨slot, text⟩ := argument
    rw [List.map_cons, List.nodup_cons] at hnodup
    rw [attachAllCreations] at hroom
    obtain ⟨hgrows, hspends⟩ := hattach w p b slot text hw hp
      (hvacant slot (List.mem_map_of_mem List.mem_cons_self)) hroom.left
    obtain ⟨s, hs, hkeep⟩ := hgrows.owner hp
    have hcontains₁ := contains_of_find? hs
    replace hroom := hroom.of_spends hspends
    rw [attachAll, attachAllCreations]
    rcases hresult : attach w p slot text with ⟨_ | ⟨⟩, w₁⟩
    · rw [hresult] at hgrows hspends hcontains₁
      have hrest : w₁.Grows w₁ p (arguments.map Prod.fst) :=
        (Leaves.refl hgrows.consistent).grows p _ (hgrows.consistent.le_lastId hcontains₁)
      exact ⟨hgrows.trans hw hcontains hrest, hspends⟩
    · rw [hresult] at hgrows hspends hcontains₁ hs hroom
      have hvacant₁ : ∀ other ∈ arguments.map Prod.fst,
          ({ b with slots := s } : Block).valueChild other = none := by
        intro other hother
        have hne : other ∉ [slot] := fun h => hnodup.1 (List.mem_singleton.1 h ▸ hother)
        exact (valueChild_congr (hkeep other hne)).trans
          (hvacant other (List.mem_cons_of_mem _ hother))
      obtain ⟨hgrows', hspends'⟩ :=
        ih hnodup.2 hgrows.consistent hs hvacant₁ hroom hcontains₁
      exact ⟨hgrows.trans hw hcontains hgrows', hspends.trans hspends'⟩

/-! ### Construction -/

/-- The slots of a new block are free. -/
theorem valueChild_ofTemplate (id : BlockId) (form : String) (t : Template) (fields : Fields)
    (slot : String) : (Block.ofTemplate id form t fields).valueChild slot = none := by
  rw [Block.valueChild]
  split
  · next check child hslot =>
    obtain ⟨name, hname⟩ := OrderedMap.mem_of_mem_values_ofList (OrderedMap.mem_values_of_find? hslot)
    obtain ⟨a, -, ha⟩ := List.mem_filterMap.1 hname
    exact Slot.occupant_of_ofArg? ha
  · rfl

/-- What an attempt to build a block of a form may come to. -/
def Makes (w : Workspace) (form : String) : Attempt BlockId → Prop
  | (.ok id, w') => w.Builds w' id form
  | (.error _, w') => w.Leaves w'

section

variable {attach : Workspace → BlockId → String → String → Attempt Unit}
  {creations : Workspace → BlockId → String → String → Nat} (hattach : Attaches attach creations)
include hattach

/-- What fills the free slots of a block hangs beneath that block. -/
theorem fillSlots_spec (hw : w.Consistent) (hp : w.find? p = some b)
    (hvacant : ∀ slot, b.valueChild slot = none) (form : Form) (fields : Fields)
    (hroom : w.Room (fillCreations v attach creations w p form fields)) :
    (∃ slots, w.Grows (fillSlots v attach w p form fields).2 p slots) ∧
      w.Spends (fillSlots v attach w p form fields).2
        (fillCreations v attach creations w p form fields) := by
  have hnothing : w.Grows w p [] :=
    (Leaves.refl hw).grows p _ (hw.le_lastId (contains_of_find? hp))
  rw [fillSlots]
  rw [fillCreations] at hroom ⊢
  cases hconstruction : form.construction with
  | bare => exact ⟨⟨_, hnothing⟩, .zero w⟩
  | withArguments =>
    rw [hconstruction] at hroom
    obtain ⟨hnodup, -⟩ := nodup_takeArguments (form.template.valueSlots.map Prod.fst) fields
    obtain ⟨hgrows, hspends⟩ :=
      attachAll_spec hattach _ hnodup hw hp (fun slot _ => hvacant slot) hroom
    exact ⟨⟨_, hgrows⟩, hspends⟩
  | literal slot literal field fallback =>
    rw [hconstruction] at hroom
    dsimp only at hroom ⊢
    cases hvalue : (fields.find? slot).or fallback with
    | none => exact ⟨⟨_, hnothing⟩, .zero w⟩
    | some value =>
      rw [hvalue] at hroom
      obtain ⟨hgrows, hspends⟩ := attachShadow_spec (v := v) literal (.ofList [(field, value)]) hw
        hp (hvacant slot) hroom
      dsimp only
      rcases hshadow : attachShadow v w p slot literal (.ofList [(field, value)]) with ⟨_ | _, w₁⟩
      · rw [hshadow] at hgrows hspends
        exact ⟨⟨_, hgrows⟩, hspends⟩
      · rw [hshadow] at hgrows hspends
        exact ⟨⟨_, hgrows⟩, hspends⟩

theorem construct_spec (hw : w.Consistent) (form : Form) (fields : Fields)
    (hroom : w.Room (constructCreations v attach creations w form fields)) :
    w.Makes form.name (construct v attach w form fields) ∧
      w.Spends (construct v attach w form fields).2
        (constructCreations v attach creations w form fields) := by
  cases hcreate : w.create v form.name (form.keptFields fields) with
  | error e =>
    rw [construct_of_create_error hcreate, constructCreations_of_create_error hcreate]
    exact ⟨.refl hw, .zero w⟩
  | ok r =>
    obtain ⟨id, w₁⟩ := r
    rw [constructCreations_of_create_ok hcreate] at hroom ⊢
    rw [construct_of_create_ok hcreate]
    obtain ⟨f, hf, -⟩ := get_of_create_eq_ok hcreate
    obtain ⟨hbuilds, hspends, hfind⟩ := builds_create hw hf hroom.left hcreate
    obtain ⟨⟨slots, hgrows⟩, hspends'⟩ := fillSlots_spec hattach hbuilds.consistent hfind
      (fun slot => valueChild_ofTemplate ..) form fields (hroom.of_spends hspends)
    have hbuilds' := hbuilds.grows hgrows
    replace hspends := hspends.trans hspends'
    rcases hfill : fillSlots v attach w₁ id form fields with ⟨_ | ⟨⟩, w₂⟩
    · rw [hfill] at hbuilds' hspends
      obtain ⟨hdiscard, hspends'⟩ := hbuilds'.discard hw
      exact ⟨hdiscard, hspends.trans hspends'⟩
    · rw [hfill] at hbuilds' hspends
      exact ⟨hbuilds', hspends⟩

end

/-- What was built for a free slot hangs in that slot, or is gone. -/
theorem plugBuilt_cases {r : Attempt BlockId} (hw : w.Consistent) (hp : w.find? p = some b)
    (hvacant : b.valueChild slot = none) (hmakes : w.Makes form r) :
    (w.Leaves (plugBuilt p slot r).2 ∧ r.2.Spends (plugBuilt p slot r).2 0) ∨
      ∃ x w₁, r = (.ok x, w₁) ∧ w.Builds w₁ x form ∧
        plugBuilt p slot r = (.ok (), (w₁.fill p slot x).own p x) ∧
        w.Grows ((w₁.fill p slot x).own p x) p [slot] := by
  rcases r with ⟨e | x, w₁⟩
  · exact .inl ⟨hmakes, .zero w₁⟩
  · have hbuilds : w.Builds w₁ x form := hmakes
    rw [plugBuilt]
    rcases hbuilds.connectValue hw hp hvacant with ⟨e, hconnect⟩ | ⟨hconnect, hgrows⟩
    · obtain ⟨n, w₂, hremove, hleaves, hspends⟩ := hbuilds.remove hw
      simp only [hconnect, hremove]
      exact .inl ⟨hleaves, hspends⟩
    · simp only [hconnect]
      exact .inr ⟨x, w₁, rfl, hbuilds, rfl, hgrows⟩

/-! ### Recursion -/

/-- Whatever the depth, reading an argument fills the slot with a new tree or changes nothing. -/
theorem attaches_attachArgument (v : Vocabulary) (depth : Nat) :
    Attaches (attachArgument v depth) (attachArgumentCreations v depth) := by
  induction depth with
  | zero =>
    intro w p b slot text hw hp _ _
    exact ⟨(Leaves.refl hw).grows p _ (hw.le_lastId (contains_of_find? hp)), .zero w⟩
  | succ depth ih =>
    intro w p b slot text hw hp hvacant hroom
    have hle : p ≤ w.lastId := hw.le_lastId (contains_of_find? hp)
    rw [attachArgumentCreations_succ] at hroom ⊢
    rw [attachArgument_succ]
    rcases hargument : v.argument? text with _ | e | ⟨form, given⟩
    · exact ⟨(Leaves.refl hw).grows p _ hle, .zero w⟩
    · exact ⟨(Leaves.refl hw).grows p _ hle, .zero w⟩
    · rw [hargument] at hroom
      obtain ⟨hmakes, hspends⟩ := construct_spec ih hw form given hroom
      rcases plugBuilt_cases hw hp hvacant hmakes with
        ⟨hleaves, hspends'⟩ | ⟨x, w₁, hconstruct, -, hplug, hgrows⟩
      · exact ⟨hleaves.grows p _ hle, hspends.trans hspends'⟩
      · rw [hconstruct] at hspends
        simp only [hplug]
        exact ⟨hgrows, hspends⟩

/-- Read with so much depth to go, the text of an argument becomes a tree of the given form with the
top `x`, which is not plugged in yet. -/
def ReadsArgument (v : Vocabulary) (depth : Nat) (w : Workspace) (text : String) (form : Form)
    (x : BlockId) (w' : Workspace) : Prop :=
  Expression.bare text ≠ "" ∧ ∃ c given, v.expressionFor (Expression.bare text) = some (form, c) ∧
    form.readFields c = .ok given ∧
      construct v (attachArgument v depth) w form given = (.ok x, w')

theorem readsArgument_iff {v : Vocabulary} {depth : Nat} {form : Form} {x : BlockId} :
    ReadsArgument v depth w text form x w' ↔
      ∃ given, v.argument? text = some (.ok (form, given)) ∧
        construct v (attachArgument v depth) w form given = (.ok x, w') := by
  constructor
  · rintro ⟨hblank, c, given, hform, hread, hconstruct⟩
    exact ⟨given, Vocabulary.argument?_eq_ok_iff.2 ⟨hblank, c, hform, hread⟩, hconstruct⟩
  · rintro ⟨given, hargument, hconstruct⟩
    obtain ⟨hblank, c, hform, hread⟩ := Vocabulary.argument?_eq_ok_iff.1 hargument
    exact ⟨hblank, c, given, hform, hread, hconstruct⟩

theorem ReadsArgument.attachArgument_eq {v : Vocabulary} {depth : Nat} {x : BlockId} {form : Form}
    {w₁ : Workspace} (h : ReadsArgument v depth w text form x w₁)
    (hconnect : w₁.connectValue p slot x = (.ok (), w')) :
    attachArgument v (depth + 1) w p slot text = (.ok (), w') := by
  obtain ⟨given, hargument, hconstruct⟩ := readsArgument_iff.1 h
  simp only [attachArgument_succ, hargument, hconstruct, plugBuilt, hconnect]

/-- An argument is a new tree that the slot took, or else the slot is as it was. -/
theorem attachArgument_spec {v : Vocabulary} {depth : Nat} (hw : w.Consistent)
    (hp : w.find? p = some b) (hvacant : b.valueChild slot = none)
    (hroom : w.Room (attachArgumentCreations v depth w p slot text)) :
    (attachArgument v depth w p slot text).2.find? p = some b ∨
      ∃ d form x w₁, depth = d + 1 ∧ ReadsArgument v d w text form x w₁ ∧
        w.Builds w₁ x form.name ∧
        attachArgument v depth w p slot text = (.ok (), (w₁.fill p slot x).own p x) := by
  have hle : p ≤ w.lastId := hw.le_lastId (contains_of_find? hp)
  cases depth with
  | zero => exact .inl hp
  | succ depth =>
    rw [attachArgumentCreations_succ] at hroom
    rw [attachArgument_succ]
    rcases hargument : v.argument? text with _ | e | ⟨form, given⟩
    · exact .inl hp
    · exact .inl hp
    · rw [hargument] at hroom
      obtain ⟨hmakes, -⟩ := construct_spec (attaches_attachArgument v depth) hw form given hroom
      rcases plugBuilt_cases hw hp hvacant hmakes with
        ⟨hleaves, -⟩ | ⟨x, w₁, hconstruct, hbuilds, hplug, -⟩
      · exact .inl ((hleaves.find?_eq hle).trans hp)
      · exact .inr ⟨depth, form, x, w₁, rfl, readsArgument_iff.2 ⟨given, hargument, hconstruct⟩,
          hbuilds, hplug⟩

/-- The blocks when a new tree is plugged into an older block. -/
theorem Builds.find?_own_fill {x y : BlockId} {child : Block} (hw : w.Consistent)
    (h : w.Builds w' x form) (hp : w.find? p = some b) (hx : w'.find? x = some child) :
    ((w'.fill p slot x).own p x).find? y =
      if y = x then some { child with parent := some p }
      else if y = p then some { b with slots := b.slots.modify slot (Slot.hold (some x)) }
      else w'.find? y := by
  have hle : p ≤ w.lastId := hw.le_lastId (contains_of_find? hp)
  have hne : x ≠ p := Nat.ne_of_gt (Nat.lt_of_le_of_lt hle h.lt_id)
  exact find?_relink (q := some p)
    (f := fun b => { b with slots := b.slots.modify slot (Slot.hold (some x)) })
    ((h.find?_eq hle).trans hp) hx hne

/-- An argument that was attached is a block of the form that takes its text; otherwise the slot is
as it was. -/
theorem attachArgument_cases {v : Vocabulary} {depth : Nat} (hw : w.Consistent)
    (hp : w.find? p = some b) (hvacant : b.valueChild slot = none)
    (hroom : w.Room (attachArgumentCreations v depth w p slot text)) :
    (attachArgument v depth w p slot text).2.find? p = some b ∨
      ∃ form c x child, v.expressionFor (Expression.bare text) = some (form, c) ∧
        (attachArgument v depth w p slot text).2.find? p =
          some { b with slots := b.slots.modify slot (Slot.hold (some x)) } ∧
        (attachArgument v depth w p slot text).2.find? x = some child ∧ child.form = form.name := by
  refine (attachArgument_spec hw hp hvacant hroom).imp_right ?_
  rintro ⟨d, form, x, w₁, -, ⟨-, c, given, hform, -⟩, hbuilds, hattach⟩
  obtain ⟨child, hchild, hname, -⟩ := hbuilds.root
  have hle : p ≤ w.lastId := hw.le_lastId (contains_of_find? hp)
  have hne : p ≠ x := Nat.ne_of_lt (Nat.lt_of_le_of_lt hle hbuilds.lt_id)
  rw [hattach]
  refine ⟨form, c, x, _, hform, ?_, (hbuilds.find?_own_fill hw hp hchild).trans (if_pos rfl), hname⟩
  exact (hbuilds.find?_own_fill hw hp hchild).trans ((if_neg hne).trans (if_pos rfl))

theorem build_spec (hw : w.Consistent) (line : String) (form : Form) (c : Capture)
    (hroom : w.Room (buildCreations v w line form c)) :
    w.Makes form.name (build v w line form c) ∧
      w.Spends (build v w line form c).2 (buildCreations v w line form c) := by
  rw [build]
  rw [buildCreations] at hroom ⊢
  cases hfields : form.readFields c with
  | error e => exact ⟨.refl hw, .zero w⟩
  | ok fields =>
    rw [hfields] at hroom
    exact construct_spec (attaches_attachArgument v line.length) hw form fields hroom

end ScriptBlocks.Workspace
