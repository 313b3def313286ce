import ScriptBlocks.Proofs.Reading.Lines
import ScriptBlocks.Proofs.Workspace.Alter

/-!
# Reading looks at no older block

What is read goes into new blocks, and only these are looked at on the way: whatever was done to the
older ones beforehand may as well be done afterwards.

## Main definitions

* `Workspace.Overlooks` — what a way of attaching arguments has to keep to

## Main statements

* `Workspace.Extends.cutAt` — no link leads from a new block to an older one
* `Workspace.overlooks_attachArgument` — reading an argument keeps to it, at every depth
* `Workspace.readLine_alter`, `Workspace.readLines_alter` — lines read after such a change
-/

namespace ScriptBlocks.Workspace

variable {w₀ w w' : Workspace} {f : BlockId → Block → Block} {top p : BlockId} {b : Block}
  {form slot : String} {slots : List String} {v : Vocabulary} {o : ReadingOptions}

/-- What hangs beneath an old block is old, and what hangs beneath a new one is new. -/
theorem Extends.cutAt (hw₀ : w₀.Consistent) (h : w₀.Extends w) : w.CutAt w₀.lastId where
  lt_of_parent? {c p} hc hp := by
    refine Nat.not_le.1 fun hle => absurd hc (Nat.not_lt.2 ?_)
    have hchild : c ∈ w.childrenOf p := h.consistent.mem_children.2 hp
    rw [childrenOf, h.find?_eq hle, ← childrenOf, hw₀.mem_children] at hchild
    exact hw₀.le_lastId (contains_of_parent? hchild)
  lt_of_mem_children {p c} hp hc := by
    refine Nat.not_le.1 fun hle => absurd hp (Nat.not_lt.2 ?_)
    exact h.le_lastId_of_above hw₀ (.single (h.consistent.mem_children.1 hc)) hle

/-- What hangs new blocks beneath a new block leaves the old ones alone. -/
theorem Extends.grows (h : w₀.Extends w) (hp : w₀.lastId < p) (h' : w.Grows w' p slots) :
    w₀.Extends w' where
  consistent := h'.consistent
  lastId_le := Nat.le_trans h.lastId_le h'.lastId_le
  variableNames_eq := h'.variableNames_eq.trans h.variableNames_eq
  find?_eq {x} hx := by
    have hne : x ≠ p := Nat.ne_of_lt (Nat.lt_of_le_of_lt hx hp)
    exact (h'.find?_eq (Nat.le_trans hx h.lastId_le) hne).trans (h.find?_eq hx)

section

variable (hw₀ : w₀.Consistent) (hf : Spares f w₀.lastId) (h : w₀.Extends w)

include hf h in
theorem Extends.create_alter (hroom : w.Room (formCreations v form)) (fields : Fields) :
    (w.alter f).create v form fields = (w.create v form fields).map (alterAfter f) := by
  refine Workspace.create_alter hf h.lastId_le (fun t hform => ?_) fields
  rwa [formCreations, hform] at hroom

include hf h in
theorem Extends.createShadow_alter (hroom : w.Room (formCreations v form)) (fields : Fields) :
    (w.alter f).createShadow v form fields =
      (w.createShadow v form fields).map (alterAfter f) := by
  refine Workspace.createShadow_alter hf h.lastId_le (fun t hform => ?_) fields
  rwa [formCreations, hform] at hroom

include hw₀ hf h

/-! ### A new tree -/

theorem Builds.connectValue_alter (h' : w.Builds w' top form) (hp : w.find? p = some b)
    (hlt : w₀.lastId < p) (hvacant : b.valueChild slot = none) :
    (w'.alter f).connectValue p slot top =
      alterAfter f (w'.connectValue p slot top) := by
  have htop : w₀.lastId < top := Nat.lt_of_le_of_lt h.lastId_le h'.lt_id
  have hp' := (h'.find?_eq (h.consistent.le_lastId (contains_of_find? hp))).trans hp
  exact ((h.trans h'.toExtends).cutAt hw₀).connectValue_alter hf hlt htop hp' hvacant

theorem Builds.remove_alter (h' : w.Builds w' top form) :
    (w'.alter f).remove top = (w'.remove top).map (alterAfter f) := by
  obtain ⟨b, hb, -, hroot, -⟩ := h'.root
  have htop : w₀.lastId < top := Nat.lt_of_le_of_lt h.lastId_le h'.lt_id
  exact ((h.trans h'.toExtends).cutAt hw₀).remove_alter hf htop hb hroot

theorem Builds.discard_alter (h' : w.Builds w' top form) :
    (w'.alter f).discard top = (w'.discard top).alter f := by
  rw [Workspace.discard, Workspace.discard, h'.remove_alter hw₀ hf h]
  cases w'.remove top with
  | error => rfl
  | ok r => rfl

/-! ### Default literals -/

theorem attachShadow_alter (fields : Fields) (hp : w.find? p = some b) (hlt : w₀.lastId < p)
    (hvacant : b.valueChild slot = none) (hroom : w.Room (formCreations v form)) :
    attachShadow v (w.alter f) p slot form fields =
      alterAfter f (attachShadow v w p slot form fields) := by
  rw [attachShadow, attachShadow, h.createShadow_alter hf hroom]
  cases hcreate : w.createShadow v form fields with
  | error => rfl
  | ok r =>
    obtain ⟨literal, w₁⟩ := r
    obtain ⟨w₂, hbare, rfl⟩ := createShadow_eq_ok.1 hcreate
    obtain ⟨t, ht, hone⟩ := get_of_create_eq_ok hbare
    rw [hone] at hroom
    obtain ⟨hbuilds, -⟩ := builds_create h.consistent ht hroom hbare
    have hshadow := hbuilds.modify (inert_shadow true) fun _ => ⟨rfl, rfl⟩
    simp only [Except.map, alterAfter_mk, hshadow.connectValue_alter hw₀ hf h hp hlt hvacant]
    rcases hshadow.connectValue h.consistent hp hvacant with ⟨e, hconnect⟩ | ⟨hconnect, -⟩
    · simp only [hconnect, alterAfter_mk, hshadow.discard_alter hw₀ hf h]
    · simp only [hconnect, alterAfter_mk]

end

/-! ### Arguments -/

/-- A way of attaching arguments that does not look at older blocks. -/
def Overlooks (w₀ : Workspace) (f : BlockId → Block → Block)
    (attach : Workspace → BlockId → String → String → Attempt Unit)
    (creations : Workspace → BlockId → String → String → Nat) : Prop :=
  ∀ (w : Workspace) (p : BlockId) (b : Block) (slot text : String), w₀.Extends w →
    w₀.lastId < p → w.find? p = some b → b.valueChild slot = none →
      w.Room (creations w p slot text) →
        attach (w.alter f) p slot text = alterAfter f (attach w p slot text)

section

variable {attach : Workspace → BlockId → String → String → Attempt Unit}
  {creations : Workspace → BlockId → String → String → Nat}
  (hw₀ : w₀.Consistent) (hf : Spares f w₀.lastId) (hattach : Attaches attach creations)
  (hover : Overlooks w₀ f attach creations)

include hattach hover

theorem attachAll_alter (arguments : List (String × String))
    (hnodup : (arguments.map Prod.fst).Nodup) (h : w₀.Extends w) (hp : w.find? p = some b)
    (hlt : w₀.lastId < p) (hvacant : ∀ slot ∈ arguments.map Prod.fst, b.valueChild slot = none)
    (hroom : w.Room (attachAllCreations (attach · p) (creations · p) arguments w)) :
    attachAll (attach · p) arguments (w.alter f) =
      alterAfter f (attachAll (attach · p) arguments w) := by
  induction arguments generalizing w b with
  | nil => rfl
  | cons argument arguments ih =>
    obtain ⟨slot, text⟩ := argument
    rw [List.map_cons, List.nodup_cons] at hnodup
    rw [attachAllCreations] at hroom
    have hfree := hvacant slot (List.mem_map_of_mem List.mem_cons_self)
    obtain ⟨hgrows, hspends⟩ := hattach w p b slot text h.consistent hp hfree hroom.left
    obtain ⟨s, hs, hkeep⟩ := hgrows.owner hp
    rw [attachAll, attachAll, hover w p b slot text h hlt hp hfree hroom.left]
    replace hroom := hroom.of_spends hspends
    rcases hresult : attach w p slot text with ⟨_ | ⟨⟩, w₁⟩
    · rfl
    · rw [hresult] at hgrows hs hroom
      -- the slots of the arguments that are left are still free
      refine ih hnodup.2 (h.grows hlt hgrows) hs (fun other hother => ?_) hroom
      have hne : other ∉ [slot] := fun h => hnodup.1 (List.mem_singleton.1 h ▸ hother)
      exact (valueChild_congr (hkeep other hne)).trans
        (hvacant other (List.mem_cons_of_mem _ hother))

include hw₀ hf

/-! ### Construction -/

theorem fillSlots_alter (h : w₀.Extends w) (hp : w.find? p = some b) (hlt : w₀.lastId < p)
    (hvacant : ∀ slot, b.valueChild slot = none) (form : Form) (fields : Fields)
    (hroom : w.Room (fillCreations v attach creations w p form fields)) :
    fillSlots v attach (w.alter f) p form fields =
      alterAfter f (fillSlots v attach w p form fields) := by
  rw [fillSlots, fillSlots]
  rw [fillCreations] at hroom
  cases hconstruction : form.construction with
  | bare => rfl
  | withArguments =>
    rw [hconstruction] at hroom
    obtain ⟨hnodup, -⟩ := nodup_takeArguments (form.template.valueSlots.map Prod.fst) fields
    exact attachAll_alter hattach hover _ hnodup h hp hlt (fun slot _ => hvacant slot) hroom
  | literal slot literal field fallback =>
    rw [hconstruction] at hroom
    dsimp only at hroom ⊢
    cases hvalue : (fields.find? slot).or fallback with
    | none => rfl
    | some value =>
      rw [hvalue] at hroom
      dsimp only
      rw [attachShadow_alter hw₀ hf h (.ofList [(field, value)]) hp hlt (hvacant slot) hroom]
      rcases attachShadow v w p slot literal (.ofList [(field, value)]) with ⟨_ | _, w₁⟩
      · rfl
      · rfl

theorem construct_alter (h : w₀.Extends w) (form : Form) (fields : Fields)
    (hroom : w.Room (constructCreations v attach creations w form fields)) :
    construct v attach (w.alter f) form fields =
      alterAfter f (construct v attach w form fields) := by
  have hcreate_alter (hone : w.Room (formCreations v form.name)) :
      (w.alter f).create v form.name (form.keptFields fields) =
        (w.create v form.name (form.keptFields fields)).map (alterAfter f) :=
    h.create_alter hf hone _
  cases hcreate : w.create v form.name (form.keptFields fields) with
  | error e =>
    rw [constructCreations_of_create_error hcreate] at hroom
    have halter := hcreate_alter (formCreations_of_create_eq_error hcreate ▸ hroom)
    rw [hcreate] at halter
    rw [construct_of_create_error hcreate, construct_of_create_error halter, alterAfter_mk]
  | ok r =>
    obtain ⟨top, w₁⟩ := r
    rw [constructCreations_of_create_ok hcreate] at hroom
    obtain ⟨t, ht, hone⟩ := get_of_create_eq_ok hcreate
    have halter := hcreate_alter (hone ▸ hroom.left)
    rw [hcreate] at halter
    rw [construct_of_create_ok hcreate, construct_of_create_ok halter]
    obtain ⟨hbuilds, hspends, hfind⟩ := builds_create h.consistent ht hroom.left hcreate
    replace hroom := hroom.of_spends hspends
    have hlt : w₀.lastId < top := Nat.lt_of_le_of_lt h.lastId_le hbuilds.lt_id
    rw [fillSlots_alter hw₀ hf hattach hover (h.trans hbuilds.toExtends) hfind hlt
      (fun slot => valueChild_ofTemplate ..) form fields hroom]
    obtain ⟨⟨slots, hgrows⟩, -⟩ := fillSlots_spec hattach hbuilds.consistent hfind
      (fun slot => valueChild_ofTemplate ..) form fields hroom
    rcases hfill : fillSlots v attach w₁ top form fields with ⟨_ | ⟨⟩, w₂⟩
    · rw [hfill] at hgrows
      simp only [alterAfter_mk, settle, (hbuilds.grows hgrows).discard_alter hw₀ hf h]
    · rfl

end

/-! ### Recursion -/

section

variable (hw₀ : w₀.Consistent) (hf : Spares f w₀.lastId)
include hw₀ hf

theorem plugBuilt_alter {r : Attempt BlockId} (h : w₀.Extends w) (hlt : w₀.lastId < p)
    (hp : w.find? p = some b) (hvacant : b.valueChild slot = none) (hmakes : w.Makes form r) :
    plugBuilt p slot (alterAfter f r) = alterAfter f (plugBuilt p slot r) := by
  rcases r with ⟨e | child, w₁⟩
  · rfl
  · have hbuilds : w.Builds w₁ child form := hmakes
    simp only [plugBuilt, alterAfter_mk, hbuilds.connectValue_alter hw₀ hf h hp hlt hvacant]
    rcases hbuilds.connectValue h.consistent hp hvacant with ⟨e, hconnect⟩ | ⟨hconnect, -⟩
    · -- a child that the slot refuses is removed with all it owns, which is new
      simp only [hconnect, alterAfter_mk, hbuilds.remove_alter hw₀ hf h]
      cases w₁.remove child with
      | error => rfl
      | ok r => rfl
    · simp only [hconnect, alterAfter_mk]

/-- Whatever the depth, reading an argument does not look at older blocks. -/
theorem overlooks_attachArgument (v : Vocabulary) (depth : Nat) :
    Overlooks w₀ f (attachArgument v depth) (attachArgumentCreations v depth) := by
  induction depth with
  | zero => exact fun _ _ _ _ _ _ _ _ _ _ => rfl
  | succ depth ih =>
    intro w p b slot text h hlt hp hvacant hroom
    rw [attachArgumentCreations_succ] at hroom
    rw [attachArgument_succ, attachArgument_succ]
    rcases hargument : v.argument? text with _ | e | ⟨form, given⟩
    · rfl
    · rfl
    · rw [hargument] at hroom
      have hattach := attaches_attachArgument v depth
      obtain ⟨hmakes, -⟩ := construct_spec hattach h.consistent form given hroom
      dsimp only
      rw [construct_alter hw₀ hf hattach ih h form given hroom,
        plugBuilt_alter hw₀ hf h hlt hp hvacant hmakes]

/-- So what the text of an argument becomes is new as well, and the same after the change. -/
theorem ReadsArgument.alter {depth : Nat} {text : String} {form : Form} {x : BlockId}
    (h : w₀.Extends w) (hroom : w.Room (attachArgumentCreations v (depth + 1) w p slot text))
    (hreads : ReadsArgument v depth w text form x w') :
    ReadsArgument v depth (w.alter f) text form x (w'.alter f) := by
  obtain ⟨given, hargument, hconstruct⟩ := readsArgument_iff.1 hreads
  rw [attachArgumentCreations_succ, hargument] at hroom
  refine readsArgument_iff.2 ⟨given, hargument, ?_⟩
  rw [construct_alter hw₀ hf (attaches_attachArgument v depth)
    (overlooks_attachArgument hw₀ hf v depth) h form given hroom, hconstruct]
  rfl

end

end ScriptBlocks.Workspace
