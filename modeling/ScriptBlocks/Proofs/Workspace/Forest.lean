import Mathlib.Logic.Function.Iterate
import ScriptBlocks.Proofs.Workspace.Body
import ScriptBlocks.Proofs.Workspace.Effects

/-!
# Walks up and walks down

The blocks of a workspace are a forest: each of them is beneath just one root. What a walk down from
a block meets are the blocks from which a walk up comes to it, so the walks down from all roots meet
every block once. A walk down may keep what is still to be visited on a stack and remember nothing
else: the stack is empty after as many steps as there are blocks in the walk.

## Main definitions

* `Visit`, `Visit.step` — a walk with what is still to be visited on a stack

## Main statements

* `Workspace.Preorder.iterate_step` — the stack is worked off in pre-order
* `Workspace.Consistent.mem_ancestors_iff_mem_descendants` — the walks up and down agree
* `Workspace.Consistent.mem_descendants_root_iff` — the one root that a block is beneath
* `Workspace.Consistent.descendants_roots_perm` — the roots share out the blocks
* `Workspace.walks_agree` — all of this for whatever workspace a host has made
-/

namespace ScriptBlocks.Workspace

/-- How far a walk has come: what is still to be visited, the next one first, and what has been
visited. -/
structure Visit where
  pending : List BlockId
  visited : List BlockId
deriving DecidableEq

/-- The next block is visited, and what it owns goes before all else that is pending. An id of no
block is passed over. With nothing pending the walk is at its end. -/
def Visit.step (w : Workspace) : Visit → Visit
  | ⟨[], visited⟩ => ⟨[], visited⟩
  | ⟨id :: pending, visited⟩ =>
    match w.find? id with
    | some b => ⟨b.children ++ pending, visited ++ [id]⟩
    | none => ⟨pending, visited⟩

variable {w : Workspace} {id p c a b r x : BlockId} {ids walk : List BlockId}

/-- Each step visits one block of the recursive walk, and nothing is left of what it started with. -/
theorem Preorder.iterate_step (h : w.Preorder ids walk) (pending visited : List BlockId) :
    (Visit.step w)^[walk.length] ⟨ids ++ pending, visited⟩ = ⟨pending, visited ++ walk⟩ := by
  induction h generalizing pending visited with
  | nil => simp
  | @cons id ids below rest b hb _ _ ihbelow ihrest =>
    have hfirst : Visit.step w ⟨id :: ids ++ pending, visited⟩ =
        ⟨b.children ++ (ids ++ pending), visited ++ [id]⟩ := by
      simp [Visit.step, hb]
    have hlength : (id :: (below ++ rest)).length = rest.length + (below.length + 1) := by
      simp only [List.length_cons, List.length_append]
      omega
    rw [hlength, Function.iterate_add_apply, Function.iterate_succ_apply, hfirst, ihbelow, ihrest]
    simp

namespace Consistent

variable (hw : w.Consistent)
include hw

/-- One block is on the way up from another just if that is another one on the way down from it. -/
theorem mem_ancestors_iff_mem_descendants : a ∈ w.ancestors b ↔ b ∈ w.descendants a ∧ b ≠ a := by
  rw [hw.mem_ancestors_iff, hw.mem_descendants_iff]
  constructor
  · intro h
    refine ⟨⟨hw.contains_left h, .inr h⟩, ?_⟩
    rintro rfl
    exact hw.acyclic h
  · rintro ⟨⟨-, heq | h⟩, hne⟩
    · exact absurd heq hne
    · exact h

/-! ### Roots -/

theorem mem_roots_iff : r ∈ w.roots ↔ w.contains r = true ∧ w.parent? r = none := by
  rw [hw.roots_eq, List.mem_filter, hw.mem_order, Option.isNone_iff_eq_none]

/-- The top of the stack of a block is the only root that the block is beneath. -/
theorem mem_descendants_root_iff (h : w.contains x = true) :
    r ∈ w.roots ∧ x ∈ w.descendants r ↔ r = w.rootOf x := by
  rw [hw.mem_roots_iff, hw.mem_descendants_iff, eq_comm (a := r), hw.rootOf_eq_iff]
  constructor
  · rintro ⟨⟨-, hroot⟩, -, hbelow⟩
    exact ⟨hbelow.imp_left Eq.symm, hroot⟩
  · rintro ⟨hbelow, hroot⟩
    have hr : w.contains r = true := by
      rcases hbelow with rfl | habove
      · exact h
      · exact hw.contains_left habove
    exact ⟨⟨hr, hroot⟩, hr, hbelow.imp_left Eq.symm⟩

theorem contains_of_mem_descendants (h : x ∈ w.descendants a) : w.contains x = true := by
  obtain ⟨ha, rfl | habove⟩ := hw.mem_descendants_iff.1 h
  · exact ha
  · exact habove.contains_right

/-- No block is beneath two roots, so the walks down from all of them meet every block once. -/
theorem descendants_roots_perm : (w.roots.flatMap w.descendants).Perm w.blocks.keys := by
  have hnodup : w.roots.Nodup := by
    rw [hw.roots_eq]
    exact (hw.sorted.imp fun h => Nat.ne_of_lt h).filter _
  refine (List.perm_ext_iff_of_nodup ?_ w.blocks.nodup).2 fun x => ?_
  · refine List.nodup_flatMap.2 ⟨fun r _ => hw.nodup_descendants r, hnodup.imp_of_mem ?_⟩
    intro r r' hr hr' hne x hx hx'
    have htop {q : BlockId} (hq : q ∈ w.roots) (hxq : x ∈ w.descendants q) : q = w.rootOf x :=
      (hw.mem_descendants_root_iff (hw.contains_of_mem_descendants hx)).1 ⟨hq, hxq⟩
    exact hne ((htop hr hx).trans (htop hr' hx').symm)
  · rw [List.mem_flatMap]
    constructor
    · rintro ⟨r, -, hx⟩
      exact OrderedMap.contains_iff.1 (hw.contains_of_mem_descendants hx)
    · intro hx
      exact ⟨_, (hw.mem_descendants_root_iff (OrderedMap.contains_iff.2 hx)).2 rfl⟩

/-- The whole chain in a slot for statements lies in the block that has the slot. -/
theorem surroundParent_of_mem_chain {owner : Block} {slot : String} (hp : w.find? p = some owner)
    (hslot : owner.slots.find? slot = some (.statement (some c))) (hx : x ∈ w.chain c) :
    w.surroundParent x = some p := by
  have hhead : w.Encloses p c := .slot ⟨owner, hp, _, OrderedMap.mem_values_of_find? hslot, rfl⟩
  exact hw.surroundParent_eq_some_iff.2 (encloses_of_mem_chainWithin hhead hx)

end Consistent

/-- Whatever blocks a host has made, the walk down from a block ends: with what is still to be visited
on a stack, it is through after as many steps as it meets blocks. It meets none of them twice, and is
the block and then, child by child, the walks down from what the block owns, the slots in their order
and the next statement behind them. The blocks on the way up from a block are those other ones on
whose way down it is. It is on the way down from just one root, which is the one that the walk up
finds, and the walks down from all roots meet all blocks once. And the chain in a slot lies in the
block with the slot. -/
theorem walks_agree (commands : List Command)
    (hroom : (∅ : Workspace).creations commands < wordLimit) :
    let w := (∅ : Workspace).run commands
    (∀ a b, w.find? a = some b →
      (Visit.step w)^[(w.descendants a).length] ⟨[a], []⟩ = ⟨[], w.descendants a⟩ ∧
      w.descendants a = a :: (b.slots.values.filterMap Slot.occupant ++ b.next.toList).flatMap
        w.descendants) ∧
    (∀ a, (w.descendants a).Nodup) ∧
    (∀ a b, a ∈ w.ancestors b ↔ b ∈ w.descendants a ∧ b ≠ a) ∧
    (∀ b, w.contains b = true → ∀ r, r ∈ w.roots ∧ b ∈ w.descendants r ↔ r = w.rootOf b) ∧
    (w.roots.flatMap w.descendants).Perm w.blocks.keys ∧
    ∀ p owner slot head, w.find? p = some owner →
      owner.slots.find? slot = some (.statement (some head)) →
        ∀ x ∈ w.chain head, w.surroundParent x = some p := by
  intro w
  obtain ⟨hw, -⟩ := consistent_run consistent_empty commands (room_empty hroom)
  refine ⟨fun a b hb => ⟨?_, hw.descendants_eq hb⟩, hw.nodup_descendants,
    fun a b => hw.mem_ancestors_iff_mem_descendants, fun b hb r => hw.mem_descendants_root_iff hb,
    hw.descendants_roots_perm, fun p owner slot head hp hslot x hx =>
      hw.surroundParent_of_mem_chain hp hslot hx⟩
  have hwalk := (hw.preorder_descendants (contains_of_find? hb)).iterate_step [] []
  rwa [List.append_nil, List.nil_append] at hwalk

/-- A loop has a conditional in it, with a condition and a body, and a pause after that. -/
theorem walks_agree_in_loop :
    let commands : List Command :=
      [.create Dialect.vocabulary "forever" ∅, .create Dialect.vocabulary "controls_if" ∅,
        .create Dialect.vocabulary "logic_boolean" ∅, .connectValue 2 "IF0" 3,
        .create Dialect.vocabulary "pause" ∅, .connectStatement 2 "DO0" 4,
        .create Dialect.vocabulary "pause" ∅, .append 2 5, .connectStatement 1 "DO" 2,
        .create Dialect.vocabulary "on_start" ∅]
    let w := (∅ : Workspace).run commands
    (∅ : Workspace).creations commands < wordLimit ∧
      (Visit.step w)^[5] ⟨[1], []⟩ = ⟨[], [1, 2, 3, 4, 5]⟩ ∧ [1, 2, 3, 4, 5].Nodup ∧
      2 ∈ w.ancestors 5 ∧ (∀ r, r ∈ w.roots ∧ 4 ∈ w.descendants r ↔ r = 1) ∧
      (w.roots.flatMap w.descendants).Perm [1, 2, 3, 4, 5, 6] ∧ w.surroundParent 5 = some 1 := by
  intro commands w
  have h : (∅ : Workspace).creations commands < wordLimit ∧
      (∃ owner ∈ w.find? 1, owner.slots.find? "DO" = some (.statement (some 2))) ∧
      w.descendants 1 = [1, 2, 3, 4, 5] ∧ 5 ∈ w.descendants 2 ∧ w.contains 4 = true ∧
      w.rootOf 4 = 1 ∧ w.blocks.keys = [1, 2, 3, 4, 5, 6] ∧ w.chain 2 = [2, 5] := by
    decide +kernel
  obtain ⟨hroom, ⟨owner, howner, hslot⟩, hdown, hbelow, hcontains, hroot, hkeys, hchain⟩ := h
  obtain ⟨hwalk, hnodup, hup, htop, hperm, hsurround⟩ := walks_agree commands hroom
  have hsteps := (hwalk 1 owner howner).1
  have hdistinct := hnodup 1
  rw [show w.descendants 1 = _ from hdown] at hsteps hdistinct
  refine ⟨hroom, hsteps, hdistinct, (hup 2 5).2 ⟨hbelow, by decide⟩, fun r => ?_, hkeys ▸ hperm,
    hsurround 1 owner "DO" 2 howner hslot 5 (hchain ▸ by decide)⟩
  rw [← hroot]
  exact htop 4 hcontains r

end ScriptBlocks.Workspace
