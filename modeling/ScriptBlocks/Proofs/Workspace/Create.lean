import ScriptBlocks.Dialect.Conditional
import ScriptBlocks.Proofs.Except
import ScriptBlocks.Proofs.OrderedMap
import ScriptBlocks.Proofs.Vocabulary
import ScriptBlocks.Proofs.Workspace.Change

/-!
# Creation and changes to single blocks keep a workspace consistent

A new block owns nothing and has no owner, whatever its template, and it follows all others as long
as the ids have not gone once around. Fields, flags and further slots have no part in the links.

## Main statements

* `Workspace.Consistent.create`, `Workspace.Consistent.createShadow` — new blocks
* `Workspace.Consistent.setField`, `Workspace.Consistent.setEnabled`,
  `Workspace.Consistent.addSlot`, `Workspace.Consistent.addElseIf` — changes to a block
-/

namespace ScriptBlocks

theorem Slot.occupant_of_ofArg? {a : Arg} {name : String} {s : Slot}
    (h : Slot.ofArg? a = some (name, s)) : s.occupant = none := by
  cases a with
  | value | statement =>
    cases h
    rfl
  | _ => exact nomatch h

/-- A new block owns nothing. -/
theorem Block.children_ofTemplate (id : BlockId) (form : String) (t : Template) (fields : Fields) :
    (Block.ofTemplate id form t fields).children = [] := by
  have hempty : (Block.ofTemplate id form t fields).slots.values.filterMap Slot.occupant = [] := by
    refine List.filterMap_eq_nil_iff.2 fun s hs => ?_
    obtain ⟨name, hname⟩ := OrderedMap.mem_of_mem_values_ofList hs
    obtain ⟨a, -, ha⟩ := List.mem_filterMap.1 hname
    exact Slot.occupant_of_ofArg? ha
  rw [children, hempty]
  rfl

namespace Workspace

variable {w w' : Workspace} {id : BlockId} {v : Vocabulary} {form : String} {fields : Fields}

/-! ### New blocks -/

theorem create_eq_ok : w.create v form fields = .ok (id, w') ↔ ∃ f, v.get form = .ok f ∧
    id = succId w.lastId ∧ w' = w.addBlock (.ofTemplate id form f.template fields) := by
  constructor
  · intro h
    simp only [create, bind_eq_ok, pure_eq_ok, Prod.mk.injEq] at h
    obtain ⟨f, hf, rfl, rfl⟩ := h
    exact ⟨f, hf, rfl, rfl⟩
  · rintro ⟨f, hf, rfl, rfl⟩
    rw [create, hf]
    rfl

/-- A block of a form of the vocabulary is created whatever its fields. -/
theorem exists_create {f : Form} (w : Workspace) (hform : v.get form = .ok f) (fields : Fields) :
    ∃ id w', w.create v form fields = .ok (id, w') :=
  ⟨_, _, create_eq_ok.2 ⟨f, hform, rfl, rfl⟩⟩

/-- Blocks of two forms that are created in the same place differ in themselves only. -/
theorem create_eq_modify {form' : String} {f' : Form} (h : w.create v form fields = .ok (id, w'))
    (hform' : v.get form' = .ok f') (fields' : Fields) :
    w.create v form' fields' =
      .ok (id, w'.modify id fun _ => .ofTemplate id form' f'.template fields') := by
  obtain ⟨f, -, rfl, rfl⟩ := create_eq_ok.1 h
  refine create_eq_ok.2 ⟨f', hform', rfl, ?_⟩
  simp only [addBlock, modify, Block.ofTemplate, OrderedMap.modify_insert]

theorem createShadow_eq_ok : w.createShadow v form fields = .ok (id, w') ↔ ∃ w₁,
    w.create v form fields = .ok (id, w₁) ∧
      w' = w₁.modify id fun b => { b with shadow := true } := by
  constructor
  · intro h
    simp only [createShadow, bind_eq_ok, pure_eq_ok, Prod.mk.injEq, Prod.exists] at h
    obtain ⟨id', w₁, hcreate, rfl, rfl⟩ := h
    exact ⟨w₁, hcreate, rfl⟩
  · rintro ⟨w₁, hcreate, rfl⟩
    rw [createShadow, hcreate]
    rfl

theorem succId_eq (h : id + 1 < wordLimit) : succId id = id + 1 := Nat.mod_eq_of_lt h

theorem edit_eq_ok {f : Block → Block} :
    w.edit id f = .ok w' ↔ w.contains id = true ∧ w' = w.modify id f := by
  rw [edit]
  split
  · next h => exact ⟨fun he => ⟨h, (Except.ok.inj he).symm⟩, fun he => congrArg _ he.2.symm⟩
  · next h => exact iff_of_false nofun fun he => h he.1

/-! ### Changes that leave the links alone -/

theorem inert_insert_field (name : String) (value : Value) :
    Inert fun b => { b with fields := b.fields.insert name value } :=
  ⟨fun _ => rfl, fun _ => rfl, fun _ => rfl, fun _ => rfl, fun _ _ _ h => h⟩

theorem inert_enabled (enabled : Bool) : Inert fun b => { b with enabled := enabled } :=
  ⟨fun _ => rfl, fun _ => rfl, fun _ => rfl, fun _ => rfl, fun _ _ _ h => h⟩

theorem inert_shadow (shadow : Bool) : Inert fun b => { b with shadow := shadow } :=
  ⟨fun _ => rfl, fun _ => rfl, fun _ => rfl, fun _ => rfl, fun _ _ _ h => h⟩

/-- A further slot is empty, so nothing is linked from it. -/
theorem inert_insertNew_slot (name : String) {s : Slot} (hempty : s.occupant = none) :
    Inert fun b => { b with slots := b.slots.insertNew name s } where
  id_eq _ := rfl
  parent_eq _ := rfl
  shape_eq _ := rfl
  children_eq b := by
    rw [Block.children, Block.children]
    rcases b.slots.values_insertNew name s with h | h
    · rw [h]
    · rw [h, List.filterMap_append, List.filterMap_cons_none hempty, List.filterMap_nil,
        List.append_nil]
  admits b c child h := by
    refine ⟨fun t ht ho => ?_, h.2⟩
    change t ∈ (b.slots.insertNew name s).values at ht
    rcases b.slots.values_insertNew name s with hvalues | hvalues
    · rw [hvalues] at ht
      exact h.1 t ht ho
    · rw [hvalues, List.mem_append, List.mem_singleton] at ht
      rcases ht with ht | rfl
      · exact h.1 t ht ho
      · cases hempty.symm.trans ho

namespace Consistent

variable (hw : w.Consistent)

include hw

theorem create (hlimit : w.lastId + 1 < wordLimit) (h : w.create v form fields = .ok (id, w')) :
    w'.Consistent := by
  obtain ⟨f, -, hid, rfl⟩ := create_eq_ok.1 h
  refine hw.addBlock ?_ rfl (Block.children_ofTemplate ..)
  rw [Block.ofTemplate, hid, succId_eq hlimit]
  exact Nat.lt_succ_self _

theorem createShadow (hlimit : w.lastId + 1 < wordLimit)
    (h : w.createShadow v form fields = .ok (id, w')) : w'.Consistent := by
  obtain ⟨w₁, hcreate, rfl⟩ := createShadow_eq_ok.1 h
  exact (hw.create hlimit hcreate).modify (inert_shadow true)

theorem edit {f : Block → Block} (hf : Inert f) (h : w.edit id f = .ok w') : w'.Consistent := by
  obtain ⟨-, rfl⟩ := edit_eq_ok.1 h
  exact hw.modify hf

theorem setField {name : String} {value : Value} (h : w.setField id name value = .ok w') :
    w'.Consistent :=
  hw.edit (inert_insert_field name value) h

theorem setEnabled {enabled : Bool} (h : w.setEnabled id enabled = .ok w') : w'.Consistent :=
  hw.edit (inert_enabled enabled) h

theorem addSlot {name : String} {s : Slot} (hempty : s.occupant = none)
    (h : w.addSlot id name s = .ok w') : w'.Consistent :=
  hw.edit (inert_insertNew_slot name hempty) h

theorem addElseIf {n : Nat} (h : w.addElseIf id = .ok (n, w')) : w'.Consistent := by
  simp only [Workspace.addElseIf, bind_eq_ok, pure_eq_ok, Prod.mk.injEq] at h
  obtain ⟨b, -, w₁, hvalue, w₂, hstatement, -, rfl⟩ := h
  exact (hw.addSlot rfl hvalue).addSlot rfl hstatement

end Consistent

/-- Only blocks matter, and the order and number of their ids. -/
theorem Consistent.declareVariable (hw : w.Consistent) (key name : String) :
    (w.declareVariable key name).Consistent :=
  { hw with }

end Workspace

end ScriptBlocks
