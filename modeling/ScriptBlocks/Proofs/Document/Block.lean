import ScriptBlocks.Document.Workspace
import ScriptBlocks.Proofs.Json.Record

/-!
# The documents of blocks

A block is read back from its document as it was, with its fields, its slots and its links, provided
that its links are numbers of 64 bits and that no field holds a float: which float is read for the
text of another is a question of its own.

## Main definitions

* `Block.Exact` — the block has an exact document

## Main statements

* `Value.ofJson?_toJson`, `Shape.ofJson?_toJson`, `Slot.ofJson?_toJson`, `Block.ofJson?_toJson` —
  reading what was written
* `Block.proper_toJson` — the document of a block can be written down
-/

namespace ScriptBlocks

open Json

/-! ### Values -/

namespace Value

def isFloat : Value → Bool
  | float _ => true
  | _ => false

variable {float : Binary64 → Json} {value : Value}

/-- An integer is read as an integer, and a text as a text. -/
theorem ofJson?_toJson (h : value.isFloat = false) : ofJson? (value.toJson float) = some value := by
  cases value with
  | null | bool => rfl
  | int i =>
    have hrange : -(integerLimit : Int) ≤ i.toInt ∧ i.toInt < integerLimit :=
      ⟨i.le_toInt, i.toInt_lt⟩
    rw [toJson, ofInt, ofJson?, ofNumber?, integer?_ofInt]
    simp only [if_pos hrange, Int64.ofInt_toInt]
  | float => exact nomatch h
  | string s => exact congrArg (Option.map string) (rawText?_escape s)

theorem proper_toJson (h : value.isFloat = false) : (value.toJson float).Proper := by
  cases value with
  | null => exact .null
  | bool b => exact .bool b
  | int i => exact proper_ofInt i.toInt
  | float => exact nomatch h
  | string s => exact proper_ofText s

end Value

/-! ### Connections -/

theorem Capability.ofJson?_toJson (c : Capability) : ofJson? c.toJson = some c := by
  have hname : ofName? c.name = some c := by cases c <;> rfl
  rw [toJson, ofText, ofJson?, rawText?_escape]
  exact hname

theorem Capability.ofJson?_ofOption (c : Option Capability) :
    nullable? ofJson? (.ofOption toJson c) = some c :=
  nullable?_ofOption nofun fun c _ => c.ofJson?_toJson

theorem natural?_ofOption {id : Option BlockId} (h : ∀ n ∈ id, n < wordLimit) :
    nullable? natural? (.ofOption .ofNat id) = some id :=
  nullable?_ofOption nofun fun n hn => natural?_ofNat (h n hn)

theorem isTangible_capability (depth : Nat) (c : Option Capability) :
    isTangible depth (.ofOption Capability.toJson c) = true :=
  isTangible_ofOption fun c _ => isTangible_ofText depth c.name

theorem proper_capability (c : Option Capability) :
    (Json.ofOption Capability.toJson c).Proper :=
  .ofOption fun c _ => proper_ofText c.name

theorem proper_id (id : Option BlockId) : (Json.ofOption .ofNat id).Proper :=
  .ofOption fun n _ => proper_ofNat n

namespace Shape

variable {depth : Nat}

theorem ofJson?_toJson (hdepth : depth ≠ 0) (s : Shape) : ofJson? depth s.toJson = some s := by
  cases s with
  | statement previous next =>
    rw [toJson, ofJson?, variant?_ofMembers hdepth (by simp) (by simp [isTangible])]
    simp only [Option.bind_eq_bind, Option.bind_some]
    rw [record?_ofMembers ["previous", "next"] (by decide) rfl]
    simp [Record.required, Record.find?, truth?]
  | expression output =>
    rw [toJson, ofJson?, variant?_ofMembers hdepth (by simp)
      (by simpa using isTangible_capability _ output)]
    simp only [Option.bind_eq_bind, Option.bind_some]
    rw [record?_ofMembers ["output"] (by decide) rfl]
    simp [Record.optional, Record.find?, Capability.ofJson?_ofOption]

theorem proper_toJson (s : Shape) : s.toJson.Proper := by
  cases s with
  | statement previous next =>
    refine .ofMembers ?_
    simp [proper_ofText, Proper.bool]
  | expression output =>
    refine .ofMembers ?_
    simp [proper_ofText, proper_capability]

end Shape

namespace Slot

variable {depth : Nat} {s : Slot}

theorem ofJson?_toJson (hdepth : depth ≠ 0) (h : ∀ n ∈ s.occupant, n < wordLimit) :
    ofJson? depth s.toJson = some s := by
  have htangible {id : Option BlockId} (h : ∀ n ∈ id, n < wordLimit) :
      isTangible (depth - 1) (.ofOption .ofNat id) = true :=
    isTangible_ofOption fun n hn => isTangible_ofNat (h n hn)
  cases s with
  | value check child =>
    have hchild : ∀ n ∈ child, n < wordLimit := h
    rw [toJson, ofJson?, variant?_ofMembers hdepth (by simp)
      (by simpa using ⟨isTangible_capability _ check, htangible hchild⟩)]
    simp only [Option.bind_eq_bind, Option.bind_some]
    rw [record?_ofMembers ["check", "child"] (by decide) rfl]
    simp [Record.optional, Record.find?, Capability.ofJson?_ofOption, natural?_ofOption hchild]
  | statement head =>
    have hhead : ∀ n ∈ head, n < wordLimit := h
    rw [toJson, ofJson?, variant?_ofMembers hdepth (by simp) (by simpa using htangible hhead)]
    simp only [Option.bind_eq_bind, Option.bind_some]
    rw [record?_ofMembers ["head"] (by decide) rfl]
    simp [Record.optional, Record.find?, natural?_ofOption hhead]

theorem proper_toJson (s : Slot) : s.toJson.Proper := by
  cases s with
  | value check child => exact .ofMembers (by simp [proper_ofText, proper_id, proper_capability])
  | statement head => exact .ofMembers (by simp [proper_ofText, proper_id])

end Slot

/-! ### Blocks -/

namespace Block

/-- The numbers that name other blocks fit in 64 bits, and no field holds a float: what the document
of the block says is exactly what the block is. -/
structure Exact (b : Block) : Prop where
  id_lt : b.id < wordLimit
  parent_lt {p : BlockId} : b.parent = some p → p < wordLimit
  children_lt {c : BlockId} : c ∈ b.children → c < wordLimit
  isFloat_eq_false {value : Value} : value ∈ b.fields.values → value.isFloat = false

variable {float : Binary64 → Json} {depth : Nat} {b : Block}

/-- A block is read back from its document. -/
theorem ofJson?_toJson (hdepth : 2 < depth) (hb : b.Exact) :
    ofJson? depth (b.toJson float) = some b := by
  have hfields : entries? Value.ofJson? (b.fields.toJson (Value.toJson float)) = some b.fields :=
    entries?_toJson fun value hvalue => Value.ofJson?_toJson (hb.isFloat_eq_false hvalue)
  have hslots :
      entries? (Slot.ofJson? (depth - 2)) (b.slots.toJson Slot.toJson) = some b.slots := by
    refine entries?_toJson fun s hs => Slot.ofJson?_toJson (by omega) fun n hn => ?_
    exact hb.children_lt (List.mem_append_left _ (List.mem_filterMap.2 ⟨s, hs, hn⟩))
  have hshape : Shape.ofJson? (depth - 1) b.shape.toJson = some b.shape :=
    Shape.ofJson?_toJson (by omega) b.shape
  have hnext : ∀ n ∈ b.next, n < wordLimit := fun n hn =>
    hb.children_lt (List.mem_append_right _ (Option.mem_toList.2 hn))
  rw [toJson, ofJson?, record?_ofMembers
    ["id", "type_name", "fields", "slots", "shape", "enabled", "shadow", "parent", "next"]
    (by decide) rfl]
  simp [Record.required, Record.optional, Record.find?, natural?_ofNat hb.id_lt, hfields, hslots,
    hshape, truth?, natural?_ofOption (fun _ => hb.parent_lt), natural?_ofOption hnext]

theorem proper_toJson (hb : b.Exact) : (b.toJson float).Proper := by
  have hfields : (b.fields.toJson (Value.toJson float)).Proper :=
    .toJson fun value hvalue => Value.proper_toJson (hb.isFloat_eq_false hvalue)
  have hslots : (b.slots.toJson Slot.toJson).Proper := .toJson fun s _ => s.proper_toJson
  refine .ofMembers ?_
  simp [proper_ofText, proper_ofNat, proper_id, hfields, hslots, b.shape.proper_toJson, Proper.bool]

end Block

end ScriptBlocks
