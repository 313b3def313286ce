import ScriptBlocks.Proofs.OrderedMap
import ScriptBlocks.Proofs.Writing.Footprint

/-!
# What a text is put together from

The slots of a block are gone through one by one, and each adds a text to the parts under its own
name. The names are distinct, so that no text is replaced by a later one. In the end the parts have a
text for each slot: that of the expression in a slot for a value, and the indented text of the
statements in a slot for statements.

## Main definitions

* `Workspace.bodyText` — the text of the statements that a slot holds
* `Parts.Gathers` — the parts hold the texts of some slots

## Main statements

* `Workspace.gathers_of_parts` — the parts that a form is given hold the texts of all slots
* `Workspace.body_of_parts` — a body is laid out from the text of the statements in its slot
-/

namespace ScriptBlocks

namespace OrderedMap

variable {κ α : Type} [DecidableEq κ]

theorem contains_insert (m : OrderedMap κ α) (k k' : κ) (a : α) :
    (m.insert k a).contains k' = true ↔ k' = k ∨ m.contains k' = true := by
  rw [← find?_isSome, ← find?_isSome, find?_insert]
  by_cases h : k' = k <;> simp [h]

end OrderedMap

/-- The text of the statements in a slot with this head. -/
def Workspace.bodyText (render : BlockId → Except Error Fragment) (w : Workspace) :
    Option BlockId → Except Error String
  | some head => w.chainText render head
  | none => .ok ""

/-- The parts hold the texts of the slots, under their names. -/
structure Parts.Gathers (p : Parts) (w : Workspace) (render : BlockId → Except Error Fragment)
    (slots : List (String × Slot)) : Prop where
  body {name : String} {head : Option BlockId} :
    (name, .statement head) ∈ slots → ∃ code, w.bodyText render head = .ok code ∧
      p.bodies.find? name = some (Layout.indentLines code p.options.indent)
  bodies_eq_none {name : String} :
    (∀ head, (name, .statement head) ∉ slots) → p.bodies.find? name = none
  value {name : String} {operand : Operand} : p.values.find? name = some (some operand) →
    ∃ check child, (name, .value check (some child)) ∈ slots ∧
      w.operand render name child = .ok operand
  operand {name : String} {check : Option Capability} {child : BlockId} :
    (name, .value check (some child)) ∈ slots → ∃ operand,
      w.operand render name child = .ok operand ∧ p.values.find? name = some (some operand)
  hasSlot_iff {name : String} : p.hasSlot name = true ↔ name ∈ slots.map Prod.fst

variable {w : Workspace} {v : Vocabulary} {o : WritingOptions} {id : BlockId} {b : Block}
  {form : Form} {render : BlockId → Except Error Fragment} {p p' : Parts} {name : String}
  {slots rest : List (String × Slot)}

namespace Workspace

/-! ### One slot -/

theorem exists_of_addSlotText_value {check : Option Capability} {child : Option BlockId}
    (h : w.addSlotText render p (name, .value check child) = .ok p') :
    ∃ text, p' = { p with values := p.values.insert name text } ∧
      (∀ operand, text = some operand →
        ∃ c, child = some c ∧ w.operand render name c = .ok operand) ∧
      ∀ c, child = some c → ∃ operand, text = some operand := by
  cases child with
  | none => exact ⟨none, (Except.ok.inj h).symm, nofun, nofun⟩
  | some child =>
    simp only [addSlotText, bind_eq_ok, pure_eq_ok] at h
    obtain ⟨text, htext, rfl⟩ := h
    refine ⟨some text, rfl, ?_, fun _ _ => ⟨text, rfl⟩⟩
    rintro _ ⟨⟩
    exact ⟨child, rfl, htext⟩

theorem exists_of_addSlotText_statement {head : Option BlockId}
    (h : w.addSlotText render p (name, .statement head) = .ok p') :
    ∃ code, w.bodyText render head = .ok code ∧
      p' = { p with bodies := p.bodies.insert name (Layout.indentLines code p.options.indent) } := by
  cases head with
  | none => exact ⟨"", rfl, (Except.ok.inj h).symm⟩
  | some head =>
    simp only [addSlotText, bind_eq_ok, pure_eq_ok] at h
    obtain ⟨code, hcode, rfl⟩ := h
    exact ⟨code, hcode, rfl⟩

end Workspace

namespace Parts

theorem hasSlot_insert_value (p : Parts) (slot name : String) (text : Option Operand) :
    { p with values := p.values.insert slot text }.hasSlot name = true ↔
      p.hasSlot name = true ∨ name = slot := by
  simp only [hasSlot, Bool.or_eq_true, OrderedMap.contains_insert]
  rw [or_assoc, or_comm]

theorem hasSlot_insert_body (p : Parts) (slot name code : String) :
    { p with bodies := p.bodies.insert slot code }.hasSlot name = true ↔
      p.hasSlot name = true ∨ name = slot := by
  simp only [hasSlot, Bool.or_eq_true, OrderedMap.contains_insert]
  rw [or_left_comm, or_comm]

namespace Gathers

/-- No slot has been gone through. -/
theorem start (w : Workspace) (render : BlockId → Except Error Fragment) (fields : Fields)
    (o : WritingOptions) : Gathers { fields, options := o } w render [] where
  body h := absurd h List.not_mem_nil
  bodies_eq_none _ := rfl
  value h := nomatch h
  operand h := absurd h List.not_mem_nil
  hasSlot_iff := by simp [hasSlot, OrderedMap.contains, EmptyCollection.emptyCollection,
    OrderedMap.empty]

theorem ne_of_mem (hnew : name ∉ slots.map Prod.fst) {e : String × Slot} (he : e ∈ slots) :
    e.1 ≠ name := by
  rintro rfl
  exact hnew (List.mem_map_of_mem he)

/-- One more slot, of a new name. -/
theorem addSlot {e : String × Slot} (h : p.Gathers w render slots)
    (hnew : e.1 ∉ slots.map Prod.fst) (hadd : w.addSlotText render p e = .ok p') :
    p'.Gathers w render (slots ++ [e]) ∧ p'.options = p.options ∧ p'.fields = p.fields := by
  match e with
  | (slot, .value check child) =>
    obtain ⟨text, rfl, htext, hsome⟩ := Workspace.exists_of_addSlotText_value hadd
    refine ⟨⟨fun {name head} hmem => ?_, fun {name} hnone => ?_, fun {name operand} hfind => ?_,
      fun {name check' c} hmem => ?_, fun {name} => ?_⟩, rfl, rfl⟩
    · exact h.body (by simpa using hmem)
    · exact h.bodies_eq_none fun head hmem => hnone head (List.mem_append_left _ hmem)
    · simp only [OrderedMap.find?_insert] at hfind
      split at hfind
      · next hname =>
        subst hname
        obtain ⟨c, rfl, hoperand⟩ := htext operand (Option.some.inj hfind)
        exact ⟨check, c, List.mem_concat_self, hoperand⟩
      · obtain ⟨check, c, hmem, hoperand⟩ := h.value hfind
        exact ⟨check, c, List.mem_append_left _ hmem, hoperand⟩
    · rcases List.mem_append.1 hmem with hmem | hmem
      · obtain ⟨operand, hoperand, hfind⟩ := h.operand hmem
        exact ⟨operand, hoperand, (p.values.find?_insert_of_ne _ (ne_of_mem hnew hmem)).trans hfind⟩
      · obtain ⟨rfl, -, rfl⟩ : name = slot ∧ check' = check ∧ some c = child := by simpa using hmem
        obtain ⟨operand, rfl⟩ := hsome c rfl
        obtain ⟨_, ⟨⟩, hoperand⟩ := htext operand rfl
        exact ⟨operand, hoperand, p.values.find?_insert_self ..⟩
    · rw [hasSlot_insert_value, h.hasSlot_iff]
      simp
  | (slot, .statement head) =>
    obtain ⟨code, hcode, rfl⟩ := Workspace.exists_of_addSlotText_statement hadd
    refine ⟨⟨fun {name head'} hmem => ?_, fun {name} hnone => ?_, fun {name operand} hfind => ?_,
      fun {name check c} hmem => ?_, fun {name} => ?_⟩, rfl, rfl⟩
    · rcases List.mem_append.1 hmem with hmem | hmem
      · have hne := ne_of_mem hnew hmem
        obtain ⟨code', hcode', hfind⟩ := h.body hmem
        exact ⟨code', hcode', (p.bodies.find?_insert_of_ne _ hne).trans hfind⟩
      · obtain ⟨rfl, rfl⟩ : name = slot ∧ head' = head := by simpa using hmem
        exact ⟨code, hcode, p.bodies.find?_insert_self ..⟩
    · have hne : name ≠ slot := by
        rintro rfl
        exact hnone head (by simp)
      refine (p.bodies.find?_insert_of_ne _ hne).trans (h.bodies_eq_none fun head hmem => ?_)
      exact hnone head (List.mem_append_left _ hmem)
    · obtain ⟨check, c, hmem, hoperand⟩ := h.value hfind
      exact ⟨check, c, List.mem_append_left _ hmem, hoperand⟩
    · exact h.operand (by simpa using hmem)
    · rw [hasSlot_insert_body, h.hasSlot_iff]
      simp

/-- Slot by slot, the texts of all are gathered. -/
theorem foldlM (h : p.Gathers w render slots) (hnodup : ((slots ++ rest).map Prod.fst).Nodup)
    (hfold : rest.foldlM (w.addSlotText render) p = .ok p') :
    p'.Gathers w render (slots ++ rest) ∧ p'.options = p.options ∧ p'.fields = p.fields := by
  induction rest generalizing p slots with
  | nil =>
    obtain rfl : p = p' := Except.ok.inj hfold
    rw [List.append_nil]
    exact ⟨h, rfl, rfl⟩
  | cons e rest ih =>
    have hnew : e.1 ∉ slots.map Prod.fst := by
      rw [List.map_append, List.map_cons, List.nodup_middle, List.nodup_cons] at hnodup
      exact fun hmem => hnodup.1 (List.mem_append_left _ hmem)
    rw [List.append_cons] at hnodup ⊢
    rw [List.foldlM_cons, bind_eq_ok] at hfold
    obtain ⟨p₁, hadd, hfold⟩ := hfold
    obtain ⟨h₁, hoptions₁, hfields₁⟩ := h.addSlot hnew hadd
    obtain ⟨h', hoptions, hfields⟩ := ih h₁ hnodup hfold
    exact ⟨h', hoptions.trans hoptions₁, hfields.trans hfields₁⟩

end Gathers

end Parts

namespace Workspace

/-! ### All slots -/

/-- The parts that the form of a block is given. -/
theorem gathers_of_parts (h : w.parts v o render form b id = .ok p) :
    p.Gathers w render b.slots.entries ∧ p.options = o ∧ p.fields = b.fields ∧
      p.variableName? = form.variableField.map (fun field =>
        w.resolveName (b.fields.text field) o.fallbackVariable) ∧
      p.globals = if form.isContainer then freeVariables v o.fallbackVariable w id else [] := by
  simp only [parts, bind_eq_ok, pure_eq_ok] at h
  obtain ⟨p', hfold, rfl⟩ := h
  obtain ⟨hgathers, hoptions, hfields⟩ :=
    (Parts.Gathers.start w render b.fields o).foldlM b.slots.nodup hfold
  exact ⟨⟨hgathers.body, hgathers.bodies_eq_none, hgathers.value, hgathers.operand,
    hgathers.hasSlot_iff⟩, hoptions, hfields, rfl, rfl⟩

/-- A body is laid out from the text of the statements in its slot. There are none if the slot is for
a value, or not there at all. -/
theorem body_of_parts (h : w.parts v o render form b id = .ok p) (slot : String) :
    ∃ code, w.bodyText render (b.statementHead slot) = .ok code ∧
      p.body slot = Layout.block (Layout.indentLines code o.indent) o.indent o.emptyBody := by
  obtain ⟨hgathers, hoptions, -⟩ := gathers_of_parts h
  rw [Parts.body, hoptions]
  by_cases hslot : ∃ head, b.slots.find? slot = some (.statement head)
  · obtain ⟨head, hslot⟩ := hslot
    obtain ⟨code, hcode, hfind⟩ := hgathers.body (OrderedMap.find?_eq_some_iff.1 hslot)
    refine ⟨code, by rw [Block.statementHead, hslot]; exact hcode, ?_⟩
    rw [hfind, hoptions]
    rfl
  · have hhead : b.statementHead slot = none := by
      rw [Block.statementHead]
      split
      · next head h => exact absurd ⟨_, h⟩ hslot
      · rfl
    refine ⟨"", by rw [hhead]; rfl, ?_⟩
    rw [hgathers.bodies_eq_none fun head hmem => hslot ⟨head, OrderedMap.find?_eq_some_iff.2 hmem⟩]
    rfl

theorem hasSlot_of_parts (h : w.parts v o render form b id = .ok p) (slot : String) :
    p.hasSlot slot = b.slots.contains slot := by
  obtain ⟨hgathers, -⟩ := gathers_of_parts h
  rw [Bool.eq_iff_iff, hgathers.hasSlot_iff, OrderedMap.contains_iff]
  rfl

end Workspace

end ScriptBlocks
