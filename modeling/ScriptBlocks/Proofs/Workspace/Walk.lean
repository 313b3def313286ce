import ScriptBlocks.Proofs.Workspace.Links

/-!
# Walks in a consistent workspace

In a consistent workspace the bound that a walk carries never cuts it short: the owners above a block
are distinct, so there are fewer of them than blocks. With the number of owners as the depth of a
block, each walk satisfies its equation without a bound.

## Main definitions

* `Workspace.depth` — the number of owners above a block

## Main statements

* `Workspace.Consistent.mem_ancestors_iff` — the upward walk finds just what is above
* `Workspace.Consistent.descendants_eq` — the downward walk is the recursive pre-order
* `Workspace.Consistent.mem_descendants_iff` — it finds just what is below
* `Workspace.Consistent.tail_eq` — the last statement of a chain has nothing after it
-/

namespace ScriptBlocks.Workspace

variable {w : Workspace} {id p c a d : BlockId} {b : Block}

/-- Distinct blocks are at most as many as there are. -/
theorem length_le_size {l : List BlockId} (hnodup : l.Nodup)
    (h : ∀ id ∈ l, w.contains id = true) : l.length ≤ w.size := by
  have hsub : l ⊆ w.blocks.keys := fun id hid => OrderedMap.contains_iff.1 (h id hid)
  have hlen := (List.subperm_of_subset hnodup hsub).length_le
  rwa [OrderedMap.keys, List.length_map] at hlen

/-! ### Upward -/

theorem ancestorsWithin_succ_of_parent? (h : w.parent? id = some p) (n : Nat) :
    w.ancestorsWithin (n + 1) id = p :: w.ancestorsWithin n p := by
  rw [ancestorsWithin, show (w.find? id).bind Block.parent = some p from h]

theorem ancestorsWithin_of_root (h : w.parent? id = none) (n : Nat) :
    w.ancestorsWithin n id = [] := by
  cases n with
  | zero => rfl
  | succ n => rw [ancestorsWithin, show (w.find? id).bind Block.parent = none from h]

theorem above_of_mem_ancestorsWithin {n : Nat} (h : a ∈ w.ancestorsWithin n d) : w.Above a d := by
  induction n generalizing d with
  | zero => exact absurd h List.not_mem_nil
  | succ n ih =>
    cases hp : w.parent? d with
    | none => rw [ancestorsWithin_of_root hp] at h; exact absurd h List.not_mem_nil
    | some x =>
      rw [ancestorsWithin_succ_of_parent? hp, List.mem_cons] at h
      rcases h with rfl | h
      · exact .single hp
      · exact (ih h).tail hp

/-- Along the upward walk each owner is above all blocks before it. -/
theorem pairwise_ancestorsWithin (n : Nat) (id : BlockId) :
    (id :: w.ancestorsWithin n id).Pairwise fun x y => w.Above y x := by
  induction n generalizing id with
  | zero => exact List.pairwise_singleton _ _
  | succ n ih =>
    refine List.pairwise_cons.2 ⟨fun y hy => above_of_mem_ancestorsWithin hy, ?_⟩
    cases hp : w.parent? id with
    | none => rw [ancestorsWithin_of_root hp]; exact .nil
    | some x => rw [ancestorsWithin_succ_of_parent? hp]; exact ih x

theorem ancestors_of_root (h : w.parent? id = none) : w.ancestors id = [] := by
  rw [ancestors_eq, ancestorsWithin_of_root h]

/-- More steps change nothing once the walk has ended. -/
theorem ancestorsWithin_succ {n : Nat} (h : (w.ancestorsWithin n id).length < n) :
    w.ancestorsWithin (n + 1) id = w.ancestorsWithin n id := by
  induction n generalizing id with
  | zero => exact absurd h (Nat.not_lt_zero _)
  | succ n ih =>
    cases hp : w.parent? id with
    | none => rw [ancestorsWithin_of_root hp, ancestorsWithin_of_root hp]
    | some x =>
      rw [ancestorsWithin_succ_of_parent? hp, List.length_cons] at h
      rw [ancestorsWithin_succ_of_parent? hp, ancestorsWithin_succ_of_parent? hp,
        ih (Nat.lt_of_succ_lt_succ h)]

theorem contains_of_mem_descendantsWithin {n : Nat} (h : d ∈ w.descendantsWithin n a) :
    w.contains a = true := by
  cases n with
  | zero => exact absurd h List.not_mem_nil
  | succ n =>
    rw [descendantsWithin] at h
    split at h
    · exact absurd h List.not_mem_nil
    · next b hb => exact contains_of_find? hb

/-- The number of owners above a block. -/
def depth (w : Workspace) (id : BlockId) : Nat := (w.ancestors id).length

namespace Consistent

variable (hw : w.Consistent)

include hw

theorem length_ancestorsWithin_lt (h : w.contains id = true) (n : Nat) :
    (w.ancestorsWithin n id).length < w.size := by
  have hnodup : (id :: w.ancestorsWithin n id).Nodup := by
    refine (pairwise_ancestorsWithin n id).imp fun {x y} hxy => ?_
    rintro rfl
    exact hw.acyclic hxy
  refine length_le_size (l := id :: w.ancestorsWithin n id) hnodup fun x hx => ?_
  rcases List.mem_cons.1 hx with rfl | hx
  · exact h
  · exact hw.contains_left (above_of_mem_ancestorsWithin hx)

theorem ancestors_eq_cons (h : w.parent? id = some p) : w.ancestors id = p :: w.ancestors p := by
  have hlt (n : Nat) := hw.length_ancestorsWithin_lt (contains_of_parent? h) n
  obtain ⟨m, hm⟩ := Nat.exists_eq_add_one_of_ne_zero (Nat.ne_of_gt (Nat.zero_lt_of_lt (hlt 0)))
  have hwalk := hlt (m + 1)
  rw [hm, ancestorsWithin_succ_of_parent? h, List.length_cons] at hwalk
  rw [ancestors_eq, ancestors_eq, hm, ancestorsWithin_succ_of_parent? h,
    ancestorsWithin_succ (Nat.lt_of_succ_lt_succ hwalk)]

theorem mem_ancestors_iff : a ∈ w.ancestors d ↔ w.Above a d := by
  constructor
  · intro h
    rw [ancestors_eq] at h
    exact above_of_mem_ancestorsWithin h
  · intro h
    induction h with
    | single h => rw [hw.ancestors_eq_cons h]; exact List.mem_cons_self
    | tail _ h ih => rw [hw.ancestors_eq_cons h]; exact List.mem_cons_of_mem _ ih

theorem depth_lt_size (h : w.contains id = true) : w.depth id < w.size := by
  rw [depth, ancestors_eq]
  exact hw.length_ancestorsWithin_lt h _

theorem depth_of_parent? (h : w.parent? id = some p) : w.depth id = w.depth p + 1 := by
  rw [depth, hw.ancestors_eq_cons h, List.length_cons, depth]

/-! ### Downward -/

/-- Two bounds that reach down to the deepest block give the same walk. -/
theorem descendantsWithin_eq {n m : Nat} (hn : w.size ≤ n + w.depth id)
    (hm : w.size ≤ m + w.depth id) : w.descendantsWithin n id = w.descendantsWithin m id := by
  induction n generalizing m id with
  | zero =>
    have hnone : w.find? id = none := find?_eq_none_iff.2 fun h => by
      have := hw.depth_lt_size h
      omega
    cases m with
    | zero => rfl
    | succ m => rw [descendantsWithin, descendantsWithin, hnone]
  | succ n ih =>
    cases hb : w.find? id with
    | none => cases m <;> simp only [descendantsWithin, hb]
    | some b =>
      cases m with
      | zero =>
        have := hw.depth_lt_size (contains_of_find? hb)
        omega
      | succ m =>
        simp only [descendantsWithin, hb]
        refine congrArg (id :: ·) (List.flatMap_congr fun c hc => ih ?_ ?_)
        · have := hw.depth_of_parent? (hw.parent?_of_mem_children hb hc)
          omega
        · have := hw.depth_of_parent? (hw.parent?_of_mem_children hb hc)
          omega

/-- Everything a block owns: the block, then what each of its children owns. -/
theorem descendants_eq (hb : w.find? id = some b) :
    w.descendants id = id :: b.children.flatMap w.descendants := by
  have hsize := hw.depth_lt_size (contains_of_find? hb)
  obtain ⟨m, hm⟩ := Nat.exists_eq_add_one_of_ne_zero (Nat.ne_of_gt (Nat.zero_lt_of_lt hsize))
  rw [descendants, hm, descendantsWithin, hb]
  refine congrArg (id :: ·) (List.flatMap_congr fun c hc => ?_)
  have := hw.depth_of_parent? (hw.parent?_of_mem_children hb hc)
  exact hw.descendantsWithin_eq (by omega) (by omega)

theorem mem_descendants_of_above (h : w.Above a d) : d ∈ w.descendants a := by
  induction h using Relation.TransGen.head_induction_on with
  | single h =>
    obtain ⟨child, hchild, hparent⟩ := parent?_eq_some_iff.1 h
    obtain ⟨owner, howner, hmem⟩ := hw.mem_children_of_parent hchild hparent
    rw [hw.descendants_eq howner]
    refine List.mem_cons_of_mem _ (List.mem_flatMap.2 ⟨_, hmem, ?_⟩)
    rw [hw.descendants_eq hchild]
    exact List.mem_cons_self
  | head h _ ih =>
    obtain ⟨child, hchild, hparent⟩ := parent?_eq_some_iff.1 h
    obtain ⟨owner, howner, hmem⟩ := hw.mem_children_of_parent hchild hparent
    rw [hw.descendants_eq howner]
    exact List.mem_cons_of_mem _ (List.mem_flatMap.2 ⟨_, hmem, ih⟩)

theorem eq_or_above_of_mem_descendantsWithin {n : Nat} (h : d ∈ w.descendantsWithin n a) :
    d = a ∨ w.Above a d := by
  induction n generalizing a with
  | zero => exact absurd h List.not_mem_nil
  | succ n ih =>
    rw [descendantsWithin] at h
    split at h
    · exact absurd h List.not_mem_nil
    · next b hb =>
      rcases List.mem_cons.1 h with rfl | h
      · exact .inl rfl
      · obtain ⟨c, hc, hd⟩ := List.mem_flatMap.1 h
        have hparent := hw.parent?_of_mem_children hb hc
        rcases ih hd with rfl | hd
        · exact .inr (.single hparent)
        · exact .inr (.head hparent hd)

/-- The downward walk finds the block and what it is above. -/
theorem mem_descendants_iff :
    d ∈ w.descendants a ↔ w.contains a = true ∧ (d = a ∨ w.Above a d) := by
  constructor
  · exact fun h =>
      ⟨contains_of_mem_descendantsWithin h, hw.eq_or_above_of_mem_descendantsWithin h⟩
  · rintro ⟨ha, rfl | h⟩
    · obtain ⟨b, hb⟩ := contains_iff_find?.1 ha
      rw [hw.descendants_eq hb]
      exact List.mem_cons_self
    · exact hw.mem_descendants_of_above h

/-- What is below a block includes the children of what is below it. -/
theorem mem_descendants_of_parent? (hp : p ∈ w.descendants a) (h : w.parent? c = some p) :
    c ∈ w.descendants a := by
  obtain ⟨ha, rfl | hp⟩ := hw.mem_descendants_iff.1 hp
  · exact hw.mem_descendants_iff.2 ⟨ha, .inr (.single h)⟩
  · exact hw.mem_descendants_iff.2 ⟨ha, .inr (hp.tail h)⟩

/-! ### Along a chain -/

/-- The walk along a chain ends at a block below its start that has nothing after it, or has gone as
many steps deeper as it was allowed. -/
theorem lastFrom_eq (hb : w.find? id = some b) (n : Nat) :
    ∃ last, w.lastFrom n b = .ok last ∧ w.find? last.id = some last ∧
      (last.id = id ∨ w.Above id last.id) ∧
        (last.next = none ∨ w.depth last.id = w.depth id + n) := by
  induction n generalizing id b with
  | zero =>
    refine ⟨b, rfl, ?_, .inl (hw.id_eq hb), .inr ?_⟩
    · rwa [hw.id_eq hb]
    · rw [hw.id_eq hb, Nat.add_zero]
  | succ n ih =>
    rw [lastFrom]
    split
    · next hnext => exact ⟨b, rfl, by rwa [hw.id_eq hb], .inl (hw.id_eq hb), .inl hnext⟩
    · next next hnext =>
      have hmem : next ∈ b.children := by
        rw [Block.children, hnext]
        exact List.mem_append_right _ (List.mem_singleton_self _)
      have hparent := hw.parent?_of_mem_children hb hmem
      obtain ⟨nb, hnb⟩ := contains_iff_find?.1 (contains_of_parent? hparent)
      obtain ⟨last, hlast, hfind, hbelow, hend⟩ := ih hnb
      rw [get_of_find? hnb]
      refine ⟨last, hlast, hfind, ?_, ?_⟩
      · rcases hbelow with hsame | habove
        · exact .inr (hsame ▸ .single hparent)
        · exact .inr (.head hparent habove)
      · have hdepth := hw.depth_of_parent? hparent
        rcases hend with hend | hend
        · exact .inl hend
        · exact .inr (by omega)

theorem tail_of_next_eq_none (hb : w.find? id = some b) (h : b.next = none) :
    w.tail id = .ok id := by
  rw [tail, get_of_find? hb]
  simp only [bind, Except.bind, lastFrom, h]
  exact congrArg Except.ok (hw.id_eq hb)

/-- The last statement of a chain is the start or below it, and has nothing after it. -/
theorem tail_eq (h : w.contains id = true) :
    ∃ last, w.tail id = .ok last.id ∧ w.find? last.id = some last ∧
      (last.id = id ∨ w.Above id last.id) ∧ last.next = none := by
  obtain ⟨b, hb⟩ := contains_iff_find?.1 h
  obtain ⟨last, hlast, hfind, hbelow, hend⟩ := hw.lastFrom_eq hb (w.size + 1)
  refine ⟨last, ?_, hfind, hbelow, ?_⟩
  · rw [tail, get_of_find? hb]
    simp only [bind, Except.bind, hlast]
    rfl
  · have := hw.depth_lt_size (contains_of_find? hfind)
    rcases hend with hend | hend
    · exact hend
    · omega

end Consistent

end ScriptBlocks.Workspace
