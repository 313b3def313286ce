import ScriptBlocks.Reading

/-!
# Steps of building

However the blocks for a match are built, a block is created first, with the fields that it keeps.
Then its slots are filled as the other fields say, and if that fails the block is discarded. An
argument is read in two steps: blocks are built for it by the form that takes its text, and these
are plugged in, or removed again where the slot refuses them. What holds of each step holds of what
is built.

## Main definitions

* `Form.keptFields`, `Workspace.fillSlots`, `Workspace.settle` — the steps of building a block
* `Vocabulary.argument?`, `Workspace.plugBuilt` — the steps of reading an argument

## Main statements

* `Workspace.construct_of_create_ok` — building is filling the slots of a new block
* `Workspace.construct_eq_ok` — and it succeeds if that does
* `Workspace.attachArgument_succ` — reading an argument is plugging in what is built for it
-/

namespace ScriptBlocks

open Workspace

/-- The fields that a block keeps of those that are given. The others say what goes into its
slots. -/
def Form.keptFields (form : Form) (given : Fields) : Fields :=
  match form.construction with
  | .bare => given
  | .withArguments => (takeArguments (form.template.valueSlots.map Prod.fst) given).2
  | .literal slot .. => given.erase slot

namespace Vocabulary

variable {v : Vocabulary} {text text' : String} {form : Form} {given : Fields}

/-- The form that the text of an argument goes to, with the field values that it reads in it, or the
reason why it cannot read them. There is none for a text that leaves the slot empty. -/
def argument? (v : Vocabulary) (text : String) : Option (Except Error (Form × Fields)) :=
  if Expression.bare text = "" then none
  else (v.expressionFor (Expression.bare text)).map fun (form, c) =>
    (form.readFields c).map (form, ·)

theorem argument?_of_bare_eq_empty (h : Expression.bare text = "") : v.argument? text = none :=
  if_pos h

/-- What is wrapped around an argument makes no difference. -/
theorem argument?_congr (h : Expression.bare text = Expression.bare text') :
    v.argument? text = v.argument? text' := by
  rw [argument?, argument?, h]

theorem argument?_eq_ok_iff : v.argument? text = some (.ok (form, given)) ↔
    Expression.bare text ≠ "" ∧ ∃ c, v.expressionFor (Expression.bare text) = some (form, c) ∧
      form.readFields c = .ok given := by
  rw [argument?]
  split
  · next hblank => simp [hblank]
  · next hblank =>
    rw [Option.map_eq_some_iff]
    constructor
    · rintro ⟨⟨form', c⟩, hform, hread⟩
      dsimp only at hread
      cases hfields : form'.readFields c with
      | error e =>
        rw [hfields] at hread
        cases hread
      | ok given' =>
        rw [hfields] at hread
        cases hread
        exact ⟨hblank, c, hform, hfields⟩
    · rintro ⟨-, c, hform, hread⟩
      refine ⟨(form, c), hform, ?_⟩
      dsimp only
      rw [hread]
      rfl

end Vocabulary

namespace Workspace

variable {v : Vocabulary} {w w₁ w' : Workspace} {id : BlockId} {form : Form} {given : Fields}
  {attach : Workspace → BlockId → String → String → Attempt Unit}

/-! ### Blocks -/

/-- Puts into the slots of a new block what the given fields say. -/
def fillSlots (v : Vocabulary) (attach : Workspace → BlockId → String → String → Attempt Unit)
    (w : Workspace) (id : BlockId) (form : Form) (given : Fields) : Attempt Unit :=
  match form.construction with
  | .bare => (.ok (), w)
  | .withArguments =>
    attachAll (attach · id) (takeArguments (form.template.valueSlots.map Prod.fst) given).1 w
  | .literal slot literal field fallback =>
    match (given.find? slot).or fallback with
    | none => (.ok (), w)
    | some value =>
      match attachShadow v w id slot literal (.ofList [(field, value)]) with
      | (.ok _, w) => (.ok (), w)
      | (.error e, w) => (.error e, w)

/-- A new block stays if its slots could be filled; otherwise it is discarded. -/
def settle (id : BlockId) : Attempt Unit → Attempt BlockId
  | (.ok (), w) => (.ok id, w)
  | (.error e, w) => (.error e, w.discard id)

theorem construct_of_create_error {e : Error}
    (h : w.create v form.name (form.keptFields given) = .error e) :
    construct v attach w form given = (.error e, w) := by
  rw [Form.keptFields] at h
  rw [construct]
  cases hconstruction : form.construction with
  | bare | withArguments | literal =>
    rw [hconstruction] at h
    simp only [h]

theorem construct_of_create_ok
    (h : w.create v form.name (form.keptFields given) = .ok (id, w₁)) :
    construct v attach w form given = settle id (fillSlots v attach w₁ id form given) := by
  rw [Form.keptFields] at h
  rw [construct, fillSlots]
  cases hconstruction : form.construction with
  | bare =>
    rw [hconstruction] at h
    simp only [h, settle]
  | withArguments =>
    rw [hconstruction] at h
    simp only [h]
    rcases attachAll (attach · id) _ w₁ with ⟨_ | ⟨⟩, w₂⟩
    · rfl
    · rfl
  | literal slot literal field fallback =>
    rw [hconstruction] at h
    simp only [h]
    cases (given.find? slot).or fallback with
    | none => rfl
    | some value =>
      dsimp only
      rcases attachShadow v w₁ id slot literal (.ofList [(field, value)]) with ⟨_ | _, w₂⟩
      · rfl
      · rfl

/-- Building succeeds where a block is created and its slots can be filled. -/
theorem construct_eq_ok : construct v attach w form given = (.ok id, w') ↔
    ∃ w₁, w.create v form.name (form.keptFields given) = .ok (id, w₁) ∧
      fillSlots v attach w₁ id form given = (.ok (), w') := by
  cases hcreate : w.create v form.name (form.keptFields given) with
  | error e => simp [construct_of_create_error hcreate]
  | ok r =>
    obtain ⟨id', w₁⟩ := r
    rw [construct_of_create_ok hcreate]
    constructor
    · intro h
      rcases hfill : fillSlots v attach w₁ id' form given with ⟨_ | ⟨⟩, w₂⟩
      · rw [hfill] at h
        cases h
      · rw [hfill] at h
        cases h
        exact ⟨w₁, rfl, hfill⟩
    · rintro ⟨_, heq, hfill⟩
      cases heq
      rw [hfill, settle]

/-! ### Arguments -/

@[simp] theorem attachAll_singleton (attach : Workspace → String → String → Attempt Unit)
    (slot text : String) (w : Workspace) :
    attachAll attach [(slot, text)] w = attach w slot text := by
  rw [attachAll]
  rcases attach w slot text with ⟨_ | _, w'⟩
  · rfl
  · rfl

/-- The arguments of a form are attached to the new block one after the other. -/
theorem construct_of_takeArguments {arguments : List (String × String)} {rest : Fields}
    (hconstruction : form.construction = .withArguments)
    (htake : takeArguments (form.template.valueSlots.map Prod.fst) given = (arguments, rest))
    (hcreate : w.create v form.name rest = .ok (id, w₁)) :
    construct v attach w form given = settle id (attachAll (attach · id) arguments w₁) := by
  have hkept : form.keptFields given = rest := by
    rw [Form.keptFields, hconstruction]
    exact congrArg Prod.snd htake
  rw [construct_of_create_ok (hkept ▸ hcreate), fillSlots, hconstruction]
  simp only [htake]

/-- Plugs what was built for an argument into its slot, and removes it if the slot refuses it. -/
def plugBuilt (parent : BlockId) (slot : String) : Attempt BlockId → Attempt Unit
  | (.error e, w) => (.error e, w)
  | (.ok child, w) =>
    match w.connectValue parent slot child with
    | (.ok (), w) => (.ok (), w)
    | (.error _, w) =>
      match w.remove child with
      | .ok (_, w) => (.ok (), w)
      | .error e => (.error e, w)

theorem attachArgument_succ (v : Vocabulary) (depth : Nat) (w : Workspace) (p : BlockId)
    (slot text : String) :
    attachArgument v (depth + 1) w p slot text =
      match v.argument? text with
      | none => (.ok (), w)
      | some (.error e) => (.error e, w)
      | some (.ok (form, given)) =>
        plugBuilt p slot (construct v (attachArgument v depth) w form given) := by
  rw [attachArgument, Vocabulary.argument?]
  split
  · rfl
  · cases v.expressionFor (Expression.bare text) with
    | none => rfl
    | some found =>
      obtain ⟨form, c⟩ := found
      dsimp only [Option.map_some]
      cases form.readFields c with
      | error e => rfl
      | ok given =>
        dsimp only [Except.map]
        rcases construct v (attachArgument v depth) w form given with ⟨_ | child, w₁⟩
        · rfl
        · rfl

end Workspace

end ScriptBlocks
