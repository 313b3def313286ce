import ScriptBlocks.Proofs.Workspace.Create
import ScriptBlocks.Proofs.Workspace.Connect

/-!
# Blocks that are out of sight

The operations look only at the blocks that they are given and at those that hang together with
them. Where the blocks up to some id do not hang together with those beyond it, a change of the former
makes no difference to an operation on the latter: the change may as well come afterwards.

## Main definitions

* `Workspace.alter` — each block changed, by a function that is told its id
* `Workspace.Spares` — a change that leaves alone all blocks beyond an id
* `Workspace.CutAt` — no link leads from the blocks beyond an id to the others

## Main statements

* `Workspace.create_alter` — a new block is the same after the change
* `Workspace.CutAt.connectValue_alter` — so is a connection
* `Workspace.CutAt.remove_alter` — and so is the removal of a block with all that it owns
-/

namespace ScriptBlocks.Workspace

/-- Each block changed by a function that is told its id. -/
def alter (f : BlockId → Block → Block) (w : Workspace) : Workspace :=
  { w with blocks := w.blocks.mapValues f }

/-- What an operation gives, with each block changed afterwards. -/
def alterAfter {α : Type} (f : BlockId → Block → Block) (r : α × Workspace) : α × Workspace :=
  (r.1, r.2.alter f)

/-- The change leaves alone the blocks beyond `k`. -/
def Spares (f : BlockId → Block → Block) (k : BlockId) : Prop := ∀ x, k < x → f x = id

/-- No link leads from a block beyond `k` to one that is not. -/
structure CutAt (w : Workspace) (k : BlockId) : Prop where
  lt_of_parent? {c p : BlockId} : k < c → w.parent? c = some p → k < p
  lt_of_mem_children {p c : BlockId} : k < p → c ∈ w.childrenOf p → k < c

variable {w : Workspace} {f g : BlockId → Block → Block} {k p c x : BlockId} {b child : Block}
  {slot form : String} {v : Vocabulary}

/-! ### What a change does to each block -/

theorem find?_alter (w : Workspace) (f : BlockId → Block → Block) (x : BlockId) :
    (w.alter f).find? x = (w.find? x).map (f x) :=
  OrderedMap.find?_mapValues ..

@[simp] theorem size_alter (w : Workspace) (f : BlockId → Block → Block) :
    (w.alter f).size = w.size :=
  List.length_map _

theorem alter_alter (w : Workspace) (f g : BlockId → Block → Block) :
    (w.alter f).alter g = w.alter fun x b => g x (f x b) :=
  congrArg (fun blocks => { w with blocks }) (OrderedMap.mapValues_mapValues f g w.blocks)

theorem alter_id (w : Workspace) : (w.alter fun _ b => b) = w := by
  rw [alter, OrderedMap.mapValues_eq_self fun _ _ _ => rfl]

@[simp] theorem alterAfter_mk {α : Type} (a : α) :
    alterAfter f (a, w) = (a, w.alter f) := rfl

theorem forget_alter (w : Workspace) (f : BlockId → Block → Block) (ids : List BlockId) :
    (w.alter f).forget ids = (w.forget ids).alter f := by
  simp only [forget, alter, OrderedMap.filterKeys_mapValues]

/-! ### Beyond the change -/

section

variable (hf : Spares f k)
include hf

theorem find?_alter_of_lt (hx : k < x) : (w.alter f).find? x = w.find? x := by
  rw [find?_alter, hf x hx]
  exact Option.map_id_apply

theorem get_alter (hx : k < x) : (w.alter f).get x = w.get x := by
  rw [get, get, find?_alter_of_lt hf hx]

theorem replaceableShadow_alter {occupant : Option BlockId} (hlt : ∀ x ∈ occupant, k < x) :
    (w.alter f).replaceableShadow p slot occupant = w.replaceableShadow p slot occupant := by
  cases occupant with
  | none => rfl
  | some existing => rw [replaceableShadow, replaceableShadow, get_alter hf (hlt existing rfl)]

theorem modify_alter (hx : k < x) (change : Block → Block) :
    (w.alter f).modify x change = (w.modify x change).alter f := by
  simp only [modify, alter, OrderedMap.modify_mapValues (hf x hx)]

theorem create_alter (hk : k ≤ w.lastId)
    (hroom : ∀ t, v.get form = .ok t → w.lastId + 1 < wordLimit) (fields : Fields) :
    (w.alter f).create v form fields = (w.create v form fields).map (alterAfter f) := by
  rw [create, create]
  cases hform : v.get form with
  | error => rfl
  | ok t =>
    have hspared : f (succId w.lastId) = id := by
      rw [succId_eq (hroom t hform)]
      exact hf _ (Nat.lt_succ_of_le hk)
    simp only [bind, Except.bind, pure, Except.pure, Except.map, alterAfter, alter,
      OrderedMap.insert_mapValues hspared]

theorem createShadow_alter (hk : k ≤ w.lastId)
    (hroom : ∀ t, v.get form = .ok t → w.lastId + 1 < wordLimit) (fields : Fields) :
    (w.alter f).createShadow v form fields =
      (w.createShadow v form fields).map (alterAfter f) := by
  rw [createShadow, createShadow, create_alter hf hk hroom]
  cases hcreate : w.create v form fields with
  | error => rfl
  | ok r =>
    obtain ⟨t, hform, hid, -⟩ := create_eq_ok.1 hcreate
    have hlt : k < r.1 := by
      rw [hid, succId_eq (hroom t hform)]
      exact Nat.lt_succ_of_le hk
    simp only [bind, Except.bind, pure, Except.pure, Except.map, alterAfter,
      modify_alter hf hlt]

end

namespace CutAt

variable (h : w.CutAt k) (hf : Spares f k)
include h

theorem lt_of_slot (hb : w.find? p = some b) (hp : k < p) {s : Slot}
    (hslot : b.slots.find? slot = some s) (hs : s.occupant = some c) : k < c := by
  refine h.lt_of_mem_children hp ?_
  rw [childrenOf_of_find? hb]
  exact Block.mem_children_of_slot hslot hs

include hf

/-! ### Walks -/

theorem ancestors_alter (hx : k < x) : (w.alter f).ancestors x = w.ancestors x := by
  rw [ancestors_eq, ancestors_eq, size_alter]
  induction w.size generalizing x with
  | zero => rfl
  | succ n ih =>
    rw [ancestorsWithin, ancestorsWithin, find?_alter_of_lt hf hx]
    cases howner : (w.find? x).bind Block.parent with
    | none => rfl
    | some p =>
      -- the way up never leaves the blocks that are spared
      exact congrArg (p :: ·) (ih (h.lt_of_parent? hx howner))

theorem descendants_alter (hx : k < x) : (w.alter f).descendants x = w.descendants x := by
  rw [descendants, descendants, size_alter]
  induction w.size generalizing x with
  | zero => rfl
  | succ n ih =>
    rw [descendantsWithin, descendantsWithin, find?_alter_of_lt hf hx]
    cases hb : w.find? x with
    | none => rfl
    | some b =>
      refine congrArg (x :: ·) (List.flatMap_congr fun c hc => ih (h.lt_of_mem_children hx ?_))
      rwa [childrenOf_of_find? hb]

/-! ### Connections -/

theorem admitChild_alter (hp : k < p) (hc : k < c) :
    (w.alter f).admitChild p c = w.admitChild p c := by
  rw [admitChild, admitChild, get_alter hf hc, h.ancestors_alter hf hp]

theorem admitValue_alter (hp : k < p) (hc : k < c) :
    (w.alter f).admitValue p slot c = w.admitValue p slot c := by
  rw [admitValue, admitValue, get_alter hf hp, get_alter hf hc, h.admitChild_alter hf hp hc]
  cases hb : w.get p with
  | error => rfl
  | ok b =>
    simp only [bind, Except.bind]
    cases hslot : b.slots.find? slot with
    | none => rfl
    | some s =>
      cases s with
      | statement => rfl
      | value check occupant =>
        have hlt : ∀ x ∈ occupant, k < x := fun x hx =>
          h.lt_of_slot (get_eq_ok_iff.1 hb) hp hslot hx
        simp only [pure, Except.pure, replaceableShadow_alter hf hlt]

/-- A connection to a free slot. -/
theorem connectValue_alter (hp : k < p) (hc : k < c) (hb : w.find? p = some b)
    (hvacant : b.valueChild slot = none) :
    (w.alter f).connectValue p slot c = alterAfter f (w.connectValue p slot c) := by
  have hsame : (w.alter f).admitValue p slot c = w.admitValue p slot c :=
    h.admitValue_alter hf hp hc
  cases hvalue : w.admitValue p slot c with
  | error e =>
    rw [connectValue_of_error hvalue, connectValue_of_error (hsame.trans hvalue)]
    rfl
  | ok r =>
    obtain ⟨b', child, check, output, hb', hslot, -⟩ := admitValue_eq_ok.1 hvalue
    obtain rfl : b = b' := Option.some.inj (hb.symm.trans hb')
    obtain rfl : r = none := by
      rw [Block.valueChild, hslot] at hvacant
      exact hvacant
    rw [connectValue_of_vacant hvalue, connectValue_of_vacant (hsame.trans hvalue), own, own, fill,
      fill, modify_alter hf hp, modify_alter hf hc]
    rfl

/-! ### Taking away -/

/-- The removal of a block without an owner. -/
theorem remove_alter (hc : k < c) (hchild : w.find? c = some child) (hroot : child.parent = none) :
    (w.alter f).remove c = (w.remove c).map (alterAfter f) := by
  have hchild' : (w.alter f).find? c = some child := (find?_alter_of_lt hf hc).trans hchild
  rw [remove_of_disconnect (disconnect_of_root hchild hroot),
    remove_of_disconnect (disconnect_of_root hchild' hroot), h.descendants_alter hf hc,
    forget_alter]
  rfl

end CutAt

end ScriptBlocks.Workspace
