import ScriptBlocks.Proofs.Expression.Formula
import ScriptBlocks.Proofs.OrderedMap
import ScriptBlocks.Workspace.Basic

/-!
# Formulas as trees of blocks

A block whose slots hold its operands, down to blocks without slots, is a formula. Whether it is one
depends only on the forms, the fields and the slots of the blocks in the tree, so a tree stays what
it is while its owner and other blocks change.

## Main definitions

* `Expression.Holds` — a block with all that its slots hold is a formula
* `Workspace.since` — the blocks that are newer than a given one
* `Arrangement` — a condition of this kind, such as being a formula or a single block with given
  fields

## Main statements

* `Holds.mono` — only forms, fields and slots matter
* `Form.arrangement_of_create` — a newly created block has the fields that it was given
-/

namespace ScriptBlocks

/-- Of one form, with the same fields and slots. -/
structure Block.Alike (b b' : Block) : Prop where
  form : b'.form = b.form
  fields : b'.fields = b.fields
  slots : b'.slots = b.slots

theorem Block.Alike.refl (b : Block) : b.Alike b := ⟨rfl, rfl, rfl⟩

/-- The block of that id if it is newer than the block `k`. -/
def Workspace.since (w : Workspace) (k id : BlockId) : Option Block :=
  if k < id then w.find? id else none

theorem Workspace.since_eq_some {w : Workspace} {k id : BlockId} {b : Block} :
    w.since k id = some b ↔ k < id ∧ w.find? id = some b := by
  rw [since]
  split
  · next h => exact (and_iff_right h).symm
  · next h => exact iff_of_false nofun fun h' => h h'.1

/-- What two slots named like those for operands hold, if these are all the slots. -/
def Block.operands? (b : Block) : Option (BlockId × BlockId) :=
  match b.slots.entries with
  | [(left, .value _ (some x)), (right, .value _ (some y))] =>
    if left = "A" ∧ right = "B" then some (x, y) else none
  | _ => none

theorem Block.operands?_eq_some {b : Block} {x y : BlockId} :
    b.operands? = some (x, y) ↔ ∃ check check', b.slots.entries =
      [("A", .value check (some x)), ("B", .value check' (some y))] := by
  constructor
  · intro h
    rw [operands?] at h
    split at h
    · next left check x' right check' y' hentries =>
      split at h
      · next hnames =>
        obtain ⟨rfl, rfl⟩ := Prod.mk.inj (Option.some.inj h)
        rw [hnames.1, hnames.2] at hentries
        exact ⟨check, check', hentries⟩
      · exact nomatch h
    · exact nomatch h
  · rintro ⟨check, check', hentries⟩
    rw [operands?, hentries]
    rfl

namespace Expression

/-- The block that `find` gives for the id, with all that its slots hold, is the formula. -/
def Holds (find : BlockId → Option Block) : BlockId → Formula → Prop
  | id, .leaf l => ∃ b, find id = some b ∧ b.form = l.form.name ∧
      (∀ e ∈ l.fields, b.fields.find? e.1 = some e.2) ∧ b.slots.entries = []
  | id, .binary op f g => ∃ b x y, find id = some b ∧ b.form = op.form.name ∧
      b.fields.find? "OP" = some (.string op.code) ∧ b.operands? = some (x, y) ∧
      Holds find x f ∧ Holds find y g

instance decidableHolds (find : BlockId → Option Block) :
    (id : BlockId) → (f : Formula) → Decidable (Holds find id f)
  | id, .leaf l =>
    inferInstanceAs (Decidable (∃ b ∈ find id, b.form = l.form.name ∧
      (∀ e ∈ l.fields, b.fields.find? e.1 = some e.2) ∧ b.slots.entries = []))
  | id, .binary op f g =>
    have := fun x => decidableHolds find x f
    have := fun y => decidableHolds find y g
    decidable_of_iff (∃ b ∈ find id, b.form = op.form.name ∧
      b.fields.find? "OP" = some (.string op.code) ∧
        ∃ p ∈ b.operands?, Holds find p.1 f ∧ Holds find p.2 g)
      ⟨fun ⟨b, hb, hform, hop, p, hp, h⟩ => ⟨b, p.1, p.2, hb, hform, hop, hp, h⟩,
        fun ⟨b, x, y, hb, hform, hop, hp, h⟩ => ⟨b, hb, hform, hop, (x, y), hp, h⟩⟩

variable {find find' : BlockId → Option Block} {id : BlockId} {f : Formula}

/-- A tree of the same blocks, or of blocks like them, is the same formula. -/
theorem Holds.mono (hfind : ∀ x b, find x = some b → ∃ b', find' x = some b' ∧ b.Alike b')
    (h : Holds find id f) : Holds find' id f := by
  induction f generalizing id with
  | leaf l =>
    obtain ⟨b, hb, hform, hfields, hslots⟩ := h
    obtain ⟨b', hb', halike⟩ := hfind id b hb
    rw [← halike.form] at hform
    rw [← halike.fields] at hfields
    rw [← halike.slots] at hslots
    exact ⟨b', hb', hform, hfields, hslots⟩
  | binary op f g ihf ihg =>
    obtain ⟨b, x, y, hb, hform, hop, hoperands, hf, hg⟩ := h
    obtain ⟨b', hb', halike⟩ := hfind id b hb
    rw [← halike.form] at hform
    rw [← halike.fields] at hop
    rw [Block.operands?, ← halike.slots] at hoperands
    exact ⟨b', x, y, hb', hform, hop, hoperands, ihf hf, ihg hg⟩

end Expression

/-- What a block and all that its slots hold may be like: a condition that looks at nothing but
forms, fields and slots, together with what such a block puts out. -/
structure Arrangement where
  output : Option Capability
  /-- The block that `find` gives for the id is of that kind. -/
  At (find : BlockId → Option Block) (id : BlockId) : Prop
  mono {find find' : BlockId → Option Block} {id : BlockId} :
    (∀ x b, find x = some b → ∃ b', find' x = some b' ∧ b.Alike b') → At find id → At find' id

namespace Arrangement

variable {t : Arrangement} {w : Workspace} {k k' id : BlockId}

theorem since_mono (hk : k' ≤ k) (h : t.At (w.since k) id) : t.At (w.since k') id := by
  refine t.mono (fun x b hx => ?_) h
  obtain ⟨hnew, hb⟩ := Workspace.since_eq_some.1 hx
  exact ⟨b, Workspace.since_eq_some.2 ⟨Nat.lt_of_le_of_lt hk hnew, hb⟩, .refl b⟩

theorem of_since (h : t.At (w.since k) id) : t.At w.find? id :=
  t.mono (fun _ b hx => ⟨b, (Workspace.since_eq_some.1 hx).2, .refl b⟩) h

end Arrangement

/-- A formula. -/
def Expression.Formula.arrangement (f : Formula) : Arrangement where
  output := f.output
  At find id := Holds find id f
  mono := Holds.mono

/-- A block of the form that has these fields and no slots. -/
def Form.arrangement (form : Form) (output : Option Capability) (pairs : List (String × Value)) :
    Arrangement where
  output := output
  At find id := ∃ b, find id = some b ∧ b.form = form.name ∧
    (∀ e ∈ pairs, b.fields.find? e.1 = some e.2) ∧ b.slots.entries = []
  mono {find find' id} hfind h := by
    obtain ⟨b, hb, hform, hfields, hslots⟩ := h
    obtain ⟨b', hb', halike⟩ := hfind id b hb
    rw [← halike.form] at hform
    rw [← halike.fields] at hfields
    rw [← halike.slots] at hslots
    exact ⟨b', hb', hform, hfields, hslots⟩

/-- The fields given to a new block are its fields. -/
theorem find?_fields_ofTemplate (id : BlockId) (name : String) (t : Template) {fields : Fields}
    {key : String} {value : Value} (h : fields.find? key = some value) :
    (Block.ofTemplate id name t fields).fields.find? key = some value :=
  OrderedMap.find?_insertMany_of_mem fields.nodup (OrderedMap.find?_eq_some_iff.1 h)

/-- A newly created block of a form without slots has the fields that it was given. -/
theorem Form.arrangement_of_create {form : Form} (output : Option Capability)
    {pairs : List (String × Value)} {find : BlockId → Option Block} {id : BlockId}
    (hnodup : (pairs.map Prod.fst).Nodup)
    (hslots : (Block.ofTemplate id form.name form.template (Dialect.fields pairs)).slots.entries = [])
    (h : find id = some (.ofTemplate id form.name form.template (Dialect.fields pairs))) :
    (form.arrangement output pairs).At find id := by
  refine ⟨_, h, rfl, fun e he => find?_fields_ofTemplate _ _ _ ?_, hslots⟩
  exact OrderedMap.find?_insertMany_of_mem hnodup he

namespace Expression

/-! ### The blocks of the forms -/

theorem Leaf.get_form (l : Leaf) : Dialect.vocabulary.get l.form.name = .ok l.form := by
  cases l <;> rfl

theorem Leaf.construction_form (l : Leaf) : l.form.construction = .bare := by
  cases l <;> rfl

theorem Leaf.shape_template (l : Leaf) : l.form.template.shape = .expression l.output := by
  cases l <;> rfl

theorem Leaf.slots_ofTemplate (l : Leaf) (id : BlockId) (name : String) (fields : Fields) :
    (Block.ofTemplate id name l.form.template fields).slots.entries = [] := by
  cases l <;> rfl

theorem Leaf.nodup_fields (l : Leaf) : (l.fields.map Prod.fst).Nodup := by
  cases l <;> simp [Leaf.fields]

theorem Operator.get_form (op : Operator) :
    Dialect.vocabulary.get op.form.name = .ok op.form := by
  cases op <;> rfl

theorem Operator.construction_form (op : Operator) : op.form.construction = .withArguments := by
  cases op <;> rfl

theorem Operator.shape_template (op : Operator) :
    op.form.template.shape = .expression op.output := by
  cases op <;> rfl

theorem Operator.valueSlots_template (op : Operator) :
    op.form.template.valueSlots.map Prod.fst = ["A", "B"] := by
  cases op <;> rfl

theorem Operator.slots_ofTemplate (op : Operator) (id : BlockId) (name : String) (fields : Fields) :
    (Block.ofTemplate id name op.form.template fields).slots.entries =
      [("A", .value op.check none), ("B", .value op.check none)] := by
  cases op <;> rfl

end Expression

end ScriptBlocks
