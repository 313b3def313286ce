import Mathlib.Data.List.Perm.Subperm
import Mathlib.Logic.Relation
import ScriptBlocks.Workspace.Connect

/-!
# Links between blocks

A link is recorded twice: the owner names the block in a slot or as the next statement, and the block
names its owner. `Workspace.Consistent` says that the two records agree, that links do not run in
circles, and that what a slot holds fits in it. Every operation relies on it and every operation keeps
it.

## Main definitions

* `Workspace.parent?`, `Workspace.childrenOf` — the two ends of a link
* `Workspace.Above` — being an owner, or an owner of an owner, and so on
* `Slot.admits`, `Block.Admits` — which blocks may be linked from where
* `Workspace.Consistent` — the invariant
-/

namespace ScriptBlocks

/-- Whether the slot may hold a block of the given shape. -/
def Slot.admits : Slot → Shape → Bool
  | value check _, .expression output => Capability.compatible check output
  | value .., .statement .. => false
  | statement _, shape => shape.hasPrevious

/-- The block `b` may own `child`, which goes by the id `id`, in all the places where it does. -/
def Block.Admits (b : Block) (id : BlockId) (child : Block) : Prop :=
  (∀ s ∈ b.slots.values, s.occupant = some id → s.admits child.shape = true) ∧
    (b.next = some id → b.shape.hasNext = true ∧ child.shape.hasPrevious = true)

/-- Only the shape of what is linked matters. -/
theorem Block.Admits.of_shape_eq {b child child' : Block} {id : BlockId} (h : b.Admits id child)
    (hshape : child'.shape = child.shape) : b.Admits id child' :=
  ⟨fun s hs ho => hshape ▸ h.1 s hs ho, fun hn => hshape ▸ h.2 hn⟩

namespace Workspace

/-- The owner of a block, if the block exists and has one. -/
def parent? (w : Workspace) (id : BlockId) : Option BlockId := (w.find? id).bind Block.parent

/-- What a block owns directly; nothing if it does not exist. -/
def childrenOf (w : Workspace) (id : BlockId) : List BlockId :=
  ((w.find? id).map Block.children).getD []

/-- `a` owns `b`, or owns an owner of `b`, and so on. -/
def Above (w : Workspace) : BlockId → BlockId → Prop :=
  Relation.TransGen fun a b => w.parent? b = some a

/-- The links of a workspace agree with each other, and its creation order with its blocks. -/
structure Consistent (w : Workspace) : Prop where
  sorted : w.order.Pairwise (· < ·)
  mem_order {id : BlockId} : id ∈ w.order ↔ w.contains id = true
  le_lastId {id : BlockId} : w.contains id = true → id ≤ w.lastId
  id_eq {id : BlockId} {b : Block} : w.find? id = some b → b.id = id
  mem_children {p c : BlockId} : c ∈ w.childrenOf p ↔ w.parent? c = some p
  nodup_children (p : BlockId) : (w.childrenOf p).Nodup
  acyclic {id : BlockId} : ¬ w.Above id id
  admits {p c : BlockId} {b child : Block} :
    w.find? p = some b → w.find? c = some child → b.Admits c child

/-! ### Looking at one block -/

variable {w : Workspace} {id p c : BlockId} {b : Block}

theorem contains_iff_find? : w.contains id = true ↔ ∃ b, w.find? id = some b := by
  rw [contains, ← OrderedMap.find?_isSome, Option.isSome_iff_exists]
  rfl

theorem contains_of_find? (h : w.find? id = some b) : w.contains id = true :=
  contains_iff_find?.2 ⟨b, h⟩

theorem find?_eq_none_iff : w.find? id = none ↔ ¬ w.contains id = true := by
  rw [contains_iff_find?]
  cases w.find? id <;> simp

theorem get_of_find? (h : w.find? id = some b) : w.get id = .ok b := by
  rw [get, h]

theorem get_of_find?_none (h : w.find? id = none) : w.get id = .error (.unknownBlock id) := by
  rw [get, h]

theorem get_eq_ok_iff : w.get id = .ok b ↔ w.find? id = some b := by
  constructor
  · intro h
    rw [get] at h
    split at h
    · next b' hb => rw [hb, Except.ok.inj h]
    · exact nomatch h
  · exact get_of_find?

theorem parent?_of_find? (h : w.find? id = some b) : w.parent? id = b.parent := by
  rw [parent?, h, Option.bind_some]

theorem parent?_eq_some_iff : w.parent? id = some p ↔ ∃ b, w.find? id = some b ∧ b.parent = some p :=
  Option.bind_eq_some_iff

theorem contains_of_parent? (h : w.parent? id = some p) : w.contains id = true := by
  obtain ⟨b, hb, -⟩ := parent?_eq_some_iff.1 h
  exact contains_of_find? hb

theorem childrenOf_of_find? (h : w.find? id = some b) : w.childrenOf id = b.children := by
  rw [childrenOf, h, Option.map_some, Option.getD_some]

theorem childrenOf_of_find?_none (h : w.find? id = none) : w.childrenOf id = [] := by
  rw [childrenOf, h, Option.map_none, Option.getD_none]

theorem contains_of_mem_childrenOf (h : c ∈ w.childrenOf p) : w.contains p = true := by
  rw [contains_iff_find?]
  cases hp : w.find? p with
  | none => rw [childrenOf_of_find?_none hp] at h; exact absurd h (List.not_mem_nil)
  | some b => exact ⟨b, rfl⟩

/-- Walks look only at blocks, so they agree on workspaces that have the same blocks. -/
theorem parent?_congr {w' : Workspace} (h : w'.find? id = w.find? id) :
    w'.parent? id = w.parent? id := by
  rw [parent?, parent?, h]

/-! ### Being above -/

theorem Above.mono {w' : Workspace} {a d : BlockId}
    (h : ∀ x y, w.parent? y = some x → w'.parent? y = some x) (hab : w.Above a d) :
    w'.Above a d :=
  Relation.TransGen.mono h _ _ hab

theorem Above.contains_right {a d : BlockId} (h : w.Above a d) : w.contains d = true := by
  cases h with
  | single h => exact contains_of_parent? h
  | tail _ h => exact contains_of_parent? h

theorem Above.exists_parent {a d : BlockId} (h : w.Above a d) : ∃ x, w.parent? d = some x := by
  cases h with
  | single h => exact ⟨_, h⟩
  | tail _ h => exact ⟨_, h⟩

/-- Whatever is above a block is its owner or above its owner. -/
theorem Above.eq_or_above {a d x : BlockId} (h : w.Above a d) (hx : w.parent? d = some x) :
    a = x ∨ w.Above a x := by
  cases h with
  | single h => exact .inl (Option.some.inj (h.symm.trans hx))
  | tail ha h => exact .inr (Option.some.inj (h.symm.trans hx) ▸ ha)

theorem not_above_of_root {a d : BlockId} (h : w.parent? d = none) : ¬ w.Above a d := by
  intro ha
  obtain ⟨x, hx⟩ := ha.exists_parent
  exact nomatch h.symm.trans hx

namespace Consistent

variable (hw : w.Consistent)

include hw

theorem contains_parent (h : w.parent? c = some p) : w.contains p = true :=
  contains_of_mem_childrenOf (hw.mem_children.2 h)

theorem contains_left {a d : BlockId} (h : w.Above a d) : w.contains a = true := by
  induction h with
  | single h => exact hw.contains_parent h
  | tail _ _ ih => exact ih

theorem parent?_of_mem_children (hb : w.find? p = some b) (hc : c ∈ b.children) :
    w.parent? c = some p :=
  hw.mem_children.1 (childrenOf_of_find? hb ▸ hc)

/-- A link leads to a block that names the owner. -/
theorem find?_of_mem_children (hb : w.find? p = some b) (hc : c ∈ b.children) :
    ∃ child, w.find? c = some child ∧ child.parent = some p :=
  parent?_eq_some_iff.1 (hw.parent?_of_mem_children hb hc)

/-- The owner that a block names has a link to it. -/
theorem mem_children_of_parent (hb : w.find? c = some b) (hp : b.parent = some p) :
    ∃ owner, w.find? p = some owner ∧ c ∈ owner.children := by
  have hmem := hw.mem_children.2 ((parent?_of_find? hb).trans hp)
  obtain ⟨owner, howner⟩ := contains_iff_find?.1 (contains_of_mem_childrenOf hmem)
  exact ⟨owner, howner, childrenOf_of_find? howner ▸ hmem⟩

theorem nodup_children_of_find? (hb : w.find? p = some b) : b.children.Nodup :=
  childrenOf_of_find? hb ▸ hw.nodup_children p

theorem not_contains_of_lastId_lt (h : w.lastId < id) : ¬ w.contains id = true :=
  fun hc => absurd (hw.le_lastId hc) (Nat.not_le.2 h)

theorem find?_of_lastId_lt (h : w.lastId < id) : w.find? id = none :=
  find?_eq_none_iff.2 (hw.not_contains_of_lastId_lt h)

theorem ne_of_parent? (h : w.parent? c = some p) : c ≠ p := by
  rintro rfl
  exact hw.acyclic (.single h)

end Consistent

/-- The empty workspace has no links at all. -/
theorem consistent_empty : (∅ : Workspace).Consistent where
  sorted := .nil
  mem_order := by simp [contains, EmptyCollection.emptyCollection, empty, OrderedMap.contains,
    OrderedMap.empty]
  le_lastId h := by simp [contains, EmptyCollection.emptyCollection, empty, OrderedMap.contains,
    OrderedMap.empty] at h
  id_eq h := by cases h
  mem_children := by
    intro p c
    exact iff_of_false List.not_mem_nil (Option.some_ne_none p).symm
  nodup_children _ := .nil
  acyclic h := by
    obtain ⟨x, hx⟩ := h.exists_parent
    cases hx
  admits h := by cases h

end Workspace

end ScriptBlocks
