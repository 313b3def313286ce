import ScriptBlocks.Proofs.Writing.Refusal

/-!
# The body of a block

The body of a block is all that the chains in its slots for statements own. A walk goes through it
slot by slot, and at each block through its slots and then on along its chain. The statement after the
block is not in the body, nor is what the block holds as values: no two blocks with the same owner
have anything below them in common.

## Main definitions

* `Block.statementHeads` — the heads of the chains in the slots for statements
* `Workspace.Preorder` — the recursive walk in pre-order
* `Workspace.InBody` — a block of the body

## Main statements

* `Workspace.Consistent.preorder_bodyBlocks` — the walk through the body is in pre-order
* `Workspace.Consistent.mem_bodyBlocks_iff` — it meets the blocks of the body
* `Workspace.InBody.apart` — what is not in the body
-/

namespace ScriptBlocks

/-- The heads of the chains in the slots for statements, in the order of the slots. -/
def Block.statementHeads (b : Block) : List BlockId :=
  b.slots.values.filterMap fun
    | .statement head => head
    | .value .. => none

theorem Block.mem_statementHeads_iff {b : Block} {head : BlockId} :
    head ∈ b.statementHeads ↔ ∃ slot, b.slots.find? slot = some (.statement (some head)) := by
  constructor
  · intro h
    obtain ⟨s, hs, hhead⟩ := List.mem_filterMap.1 h
    obtain ⟨⟨slot, s⟩, he, rfl⟩ := List.mem_map.1 hs
    cases s with
    | value => exact nomatch hhead
    | statement head' =>
      obtain rfl : head' = some head := hhead
      exact ⟨slot, OrderedMap.find?_eq_some_iff.2 he⟩
  · rintro ⟨slot, hslot⟩
    exact List.mem_filterMap.2 ⟨_, OrderedMap.mem_values_of_find? hslot, rfl⟩

theorem Block.statementHead_eq_some_iff {b : Block} {slot : String} {head : BlockId} :
    b.statementHead slot = some head ↔ b.slots.find? slot = some (.statement (some head)) := by
  rw [statementHead]
  split
  · next head' h => simp [h]
  · next h => exact iff_of_false (Option.some_ne_none head).symm (h _)

namespace Workspace

/-- The recursive walk in pre-order from some blocks on: at each of them first the block, then what
its slots hold and the statements after it, in this order. -/
inductive Preorder (w : Workspace) : List BlockId → List BlockId → Prop where
  | nil : Preorder w [] []
  | cons {id : BlockId} {ids below rest : List BlockId} {b : Block} (hb : w.find? id = some b)
      (hbelow : Preorder w b.children below) (hrest : Preorder w ids rest) :
      Preorder w (id :: ids) (id :: (below ++ rest))

/-- The block `x` is in the body of the block `c`: a slot for statements holds it, or holds a block
that is above it. -/
def InBody (w : Workspace) (c x : BlockId) : Prop :=
  ∃ b slot head, w.find? c = some b ∧ b.slots.find? slot = some (.statement (some head)) ∧
    (x = head ∨ w.Above head x)

variable {w : Workspace} {id c x y : BlockId} {b : Block} {ids walk walk' : List BlockId}

theorem inBody_iff (hb : w.find? c = some b) :
    w.InBody c x ↔ ∃ head ∈ b.statementHeads, x = head ∨ w.Above head x := by
  constructor
  · rintro ⟨b', slot, head, hb', hslot, hx⟩
    obtain rfl := Option.some.inj (hb.symm.trans hb')
    exact ⟨head, Block.mem_statementHeads_iff.2 ⟨slot, hslot⟩, hx⟩
  · rintro ⟨head, hhead, hx⟩
    obtain ⟨slot, hslot⟩ := Block.mem_statementHeads_iff.1 hhead
    exact ⟨b, slot, head, hb, hslot, hx⟩

/-! ### The walk -/

/-- There is only one walk from the same blocks on. -/
theorem Preorder.unique (h : w.Preorder ids walk) (h' : w.Preorder ids walk') : walk = walk' := by
  induction h generalizing walk' with
  | nil =>
    cases h'
    rfl
  | cons hb _ _ ihbelow ihrest =>
    cases h' with
    | cons hb' hbelow' hrest' =>
      obtain rfl := Option.some.inj (hb.symm.trans hb')
      rw [ihbelow hbelow', ihrest hrest']

/-- Walks from single blocks follow one another. -/
theorem Preorder.flatMap {f : BlockId → List BlockId} (h : ∀ id ∈ ids, w.Preorder [id] (f id)) :
    w.Preorder ids (ids.flatMap f) := by
  induction ids with
  | nil => exact .nil
  | cons id ids ih =>
    rw [List.forall_mem_cons] at h
    rw [List.flatMap_cons]
    generalize hwalk : f id = walk
    have hfirst := h.1
    rw [hwalk] at hfirst
    cases hfirst with
    | cons hb hbelow hnil =>
      cases hnil
      rw [List.append_nil, List.cons_append]
      exact .cons hb hbelow (ih h.2)

namespace Consistent

variable (hw : w.Consistent)
include hw

theorem preorder_descendants (h : w.contains id = true) : w.Preorder [id] (w.descendants id) := by
  refine hw.below_induction
    (P := fun id => w.contains id = true → w.Preorder [id] (w.descendants id)) ?_ id h
  intro id ih h
  obtain ⟨b, hb⟩ := contains_iff_find?.1 h
  rw [hw.descendants_eq hb, ← List.append_nil (List.flatMap _ _)]
  refine .cons hb (.flatMap fun c hc => ?_) .nil
  have hparent := hw.parent?_of_mem_children hb hc
  exact ih c (.single hparent) (contains_of_parent? hparent)

theorem parent?_of_mem_statementHeads (hb : w.find? c = some b) (h : x ∈ b.statementHeads) :
    w.parent? x = some c := by
  obtain ⟨slot, hslot⟩ := Block.mem_statementHeads_iff.1 h
  exact hw.parent?_of_inSlot ⟨b, hb, _, OrderedMap.mem_values_of_find? hslot, rfl⟩

/-- The body is gone through from the heads of its chains on. -/
theorem preorder_bodyBlocks (hb : w.find? c = some b) :
    w.Preorder b.statementHeads (w.bodyBlocks b) := by
  refine .flatMap fun head hhead => hw.preorder_descendants ?_
  exact contains_of_parent? (hw.parent?_of_mem_statementHeads hb hhead)

/-- The walk meets just the blocks of the body. -/
theorem mem_bodyBlocks_iff (hb : w.find? c = some b) : x ∈ w.bodyBlocks b ↔ w.InBody c x := by
  rw [inBody_iff hb, bodyBlocks, List.mem_flatMap]
  refine exists_congr fun head => and_congr_right fun hhead => ?_
  rw [hw.mem_descendants_iff, and_iff_right]
  exact contains_of_parent? (hw.parent?_of_mem_statementHeads hb hhead)

theorem above_of_inBody (h : w.InBody c x) : w.Above c x := by
  obtain ⟨b, slot, head, hb, hslot, hx⟩ := h
  have hparent := hw.parent?_of_mem_statementHeads hb (Block.mem_statementHeads_iff.2 ⟨slot, hslot⟩)
  rcases hx with rfl | hx
  · exact .single hparent
  · exact .head hparent hx

/-- The body of a block in the body is part of it. -/
theorem inBody_trans (hy : w.InBody c y) (hx : w.InBody y x) : w.InBody c x := by
  have habove := hw.above_of_inBody hx
  obtain ⟨b, slot, head, hb, hslot, hy⟩ := hy
  refine ⟨b, slot, head, hb, hslot, .inr ?_⟩
  rcases hy with rfl | hy
  · exact habove
  · exact hy.trans habove

/-! ### What is not in the body -/

/-- Neither the block itself is in its body, nor the statement after it or anything below that, nor
what it holds as a value or anything below that; and all of the body is in the same stack. -/
theorem inBody_apart (hb : w.find? c = some b) (h : w.InBody c x) :
    x ≠ c ∧ (∀ next, b.next = some next → x ≠ next ∧ ¬ w.Above next x) ∧
      (∀ check child, .value check (some child) ∈ b.slots.values →
        x ≠ child ∧ ¬ w.Above child x) ∧
      w.rootOf x = w.rootOf c := by
  have habove := hw.above_of_inBody h
  obtain ⟨head, hhead, hx⟩ := (inBody_iff hb).1 h
  have hparent := hw.parent?_of_mem_statementHeads hb hhead
  obtain ⟨slot, hslot⟩ := Block.mem_statementHeads_iff.1 hhead
  have hin : w.InSlot c head := ⟨b, hb, _, OrderedMap.mem_values_of_find? hslot, rfl⟩
  refine ⟨?_, fun next hnext => ?_, fun check child hchild => ?_, hw.rootOf_of_above habove⟩
  · rintro rfl
    exact hw.acyclic habove
  · have hprecedes : w.Precedes c next := precedes_iff.2 ⟨b, hb, hnext⟩
    rw [← not_or]
    intro hx'
    obtain rfl := hw.eq_of_below hparent (hw.parent?_of_precedes hprecedes) hx hx'
    exact hw.not_precedes_of_inSlot hin hprecedes
  · rw [← not_or]
    intro hx'
    have hparent' := hw.parent?_of_inSlot ⟨b, hb, _, hchild, rfl⟩
    obtain rfl := hw.eq_of_below hparent hparent' hx hx'
    -- a slot for statements does not hold an expression
    obtain ⟨e, he, hexpression⟩ := hw.isExpression_of_mem_slots hb hchild
    have hadmits := (hw.admits hb he).1 _ (OrderedMap.mem_values_of_find? hslot) rfl
    cases hshape : e.shape with
    | statement => exact nomatch (hshape ▸ hexpression :)
    | expression => exact nomatch (hshape ▸ hadmits :)

end Consistent

end Workspace

end ScriptBlocks
