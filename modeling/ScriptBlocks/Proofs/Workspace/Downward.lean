import Mathlib.Data.List.Nodup
import ScriptBlocks.Proofs.Workspace.Enclosure

/-!
# What the downward walks look at

The walks along a chain and to everything that a block owns look only at the block and what is below
it. So they find the same in two workspaces that agree there, however many other blocks there are and
whatever links lead to the block.

## Main statements

* `Workspace.Consistent.below_induction` — what holds of a block if it holds of all below it
* `Workspace.Consistent.nodup_descendants` — no block is met twice on the way down
* `Workspace.Consistent.chain_eq`, `Workspace.Consistent.mem_chain_iff` — what a chain is made up of
* `Workspace.Consistent.chain_congr`, `Workspace.Consistent.descendants_congr` — the walks look only
  at what is below
* `Workspace.Consistent.transGen_encloses_of_above` — what is below a block in a slot lies in the slot
-/

namespace ScriptBlocks.Workspace

variable {w w' : Workspace} {id p c x : BlockId} {b : Block}

theorem chainWithin_of_none (h : w.find? id = none) (n : Nat) : w.chainWithin n id = [] := by
  cases n with
  | zero => rfl
  | succ n => rw [chainWithin, h]

theorem descendantsWithin_of_none (h : w.find? id = none) (n : Nat) :
    w.descendantsWithin n id = [] := by
  cases n with
  | zero => rfl
  | succ n => rw [descendantsWithin, h]

/-- A chain lies in the slot in which its first statement lies. -/
theorem encloses_of_mem_chainWithin {n : Nat} (h : w.Encloses p c) (hx : x ∈ w.chainWithin n c) :
    w.Encloses p x := by
  induction n generalizing c with
  | zero => exact absurd hx List.not_mem_nil
  | succ n ih =>
    rw [chainWithin] at hx
    split at hx
    · exact absurd hx List.not_mem_nil
    · next b hb =>
      rcases List.mem_cons.1 hx with rfl | hx
      · exact h
      · split at hx
        · next next hnext => exact ih (h.next (precedes_iff.2 ⟨b, hb, hnext⟩)) hx
        · exact absurd hx List.not_mem_nil

namespace Consistent

variable (hw : w.Consistent)
include hw

/-- What holds of a block if it holds of all that is below it holds of all blocks. -/
theorem below_induction {P : BlockId → Prop}
    (step : ∀ id, (∀ c, w.Above id c → P c) → P id) (id : BlockId) : P id := by
  -- what is below is deeper, and no block is as deep as there are blocks
  induction hn : w.size - w.depth id using Nat.strongRecOn generalizing id with
  | _ n ih =>
    refine step id fun c hc => ih _ ?_ c rfl
    have hdepth := hw.depth_lt_of_above hc
    have hsize := hw.depth_lt_size hc.contains_right
    omega

/-! ### Below one owner -/

/-- Blocks with the same owner have nothing below them in common. -/
theorem eq_of_below {a a' : BlockId} (ha : w.parent? a = some c) (ha' : w.parent? a' = some c)
    (hx : x = a ∨ w.Above a x) (hx' : x = a' ∨ w.Above a' x) : a = a' := by
  -- neither of the two is above the other, for that would have to be above the owner of both
  have hnot {y z : BlockId} (hy : w.parent? y = some c) (hz : w.parent? z = some c) :
      ¬ w.Above y z := by
    intro habove
    rcases habove.eq_or_above hz with rfl | habove
    · exact hw.acyclic (.single hy)
    · exact hw.acyclic (habove.tail hy)
  revert hx hx'
  refine hw.owner_induction
    (P := fun x => (x = a ∨ w.Above a x) → (x = a' ∨ w.Above a' x) → a = a') ?_ x
  rintro x ih (rfl | hx) (rfl | hx')
  · rfl
  · exact absurd hx' (hnot ha' ha)
  · exact absurd hx (hnot ha ha')
  · obtain ⟨p, hp⟩ := hx.exists_parent
    exact ih p hp ((hx.eq_or_above hp).imp_left Eq.symm) ((hx'.eq_or_above hp).imp_left Eq.symm)

/-- The walk down from a block meets no block twice. -/
theorem nodup_descendants (id : BlockId) : (w.descendants id).Nodup := by
  refine hw.below_induction (P := fun id => (w.descendants id).Nodup) ?_ id
  intro id ih
  cases hb : w.find? id with
  | none =>
    rw [descendants, descendantsWithin_of_none hb]
    exact .nil
  | some b =>
    have hparent {c : BlockId} (hc : c ∈ b.children) := hw.parent?_of_mem_children hb hc
    rw [hw.descendants_eq hb, List.nodup_cons, List.nodup_flatMap]
    refine ⟨fun hmem => ?_, fun c hc => ih c (.single (hparent hc)), ?_⟩
    · -- the block would be below one of its children
      obtain ⟨c, hc, hid⟩ := List.mem_flatMap.1 hmem
      rcases hw.eq_or_above_of_mem_descendantsWithin hid with rfl | habove
      · exact hw.acyclic (.single (hparent hc))
      · exact hw.acyclic (.head (hparent hc) habove)
    · refine (hw.nodup_children_of_find? hb).imp_of_mem fun {c c'} hc hc' hne => ?_
      intro x hx hx'
      exact hne (hw.eq_of_below (hparent hc) (hparent hc')
        (hw.eq_or_above_of_mem_descendantsWithin hx) (hw.eq_or_above_of_mem_descendantsWithin hx'))

/-! ### Along a chain -/

/-- Two bounds that reach to the end of a chain give the same walk. -/
theorem chainWithin_eq {n m : Nat} (hn : w.size ≤ n + w.depth id) (hm : w.size ≤ m + w.depth id) :
    w.chainWithin n id = w.chainWithin m id := by
  cases hb : w.find? id with
  | none => rw [chainWithin_of_none hb, chainWithin_of_none hb]
  | some b =>
    have hsize := hw.depth_lt_size (contains_of_find? hb)
    induction n generalizing m id b with
    | zero => omega
    | succ n ih =>
      cases m with
      | zero => omega
      | succ m =>
        simp only [chainWithin, hb]
        cases hnext : b.next with
        | none => rfl
        | some next =>
          have hparent := hw.parent?_of_precedes (precedes_iff.2 ⟨b, hb, hnext⟩)
          obtain ⟨after, hafter⟩ := contains_iff_find?.1 (contains_of_parent? hparent)
          have hdepth := hw.depth_of_parent? hparent
          exact congrArg (id :: ·) (ih (by omega) (by omega) after hafter
            (hw.depth_lt_size (contains_of_parent? hparent)))

/-- A chain is its first statement and the chain after that. -/
theorem chain_eq (hb : w.find? id = some b) :
    w.chain id = id :: (b.next.map w.chain).getD [] := by
  have hsize := hw.depth_lt_size (contains_of_find? hb)
  obtain ⟨m, hm⟩ := Nat.exists_eq_add_one_of_ne_zero (Nat.ne_of_gt (Nat.zero_lt_of_lt hsize))
  simp only [chain, hm, chainWithin, hb]
  cases hnext : b.next with
  | none => rfl
  | some next =>
    have := hw.depth_of_parent? (hw.parent?_of_precedes (precedes_iff.2 ⟨b, hb, hnext⟩))
    exact congrArg (id :: ·) (hw.chainWithin_eq (by omega) (by omega))

/-- A chain is made up of its first statement and all that comes after that. -/
theorem mem_chain_iff :
    x ∈ w.chain id ↔ w.contains id = true ∧ Relation.ReflTransGen w.Precedes id x := by
  refine hw.below_induction (P := fun id => x ∈ w.chain id ↔
    w.contains id = true ∧ Relation.ReflTransGen w.Precedes id x) ?_ id
  intro id ih
  cases hb : w.find? id with
  | none =>
    rw [chain, chainWithin_of_none hb]
    exact iff_of_false List.not_mem_nil fun h => find?_eq_none_iff.1 hb h.1
  | some b =>
    rw [hw.chain_eq hb, List.mem_cons, Relation.ReflTransGen.cases_head_iff,
      and_iff_right (contains_of_find? hb), eq_comm]
    refine or_congr_right ?_
    cases hnext : b.next with
    | none =>
      refine iff_of_false List.not_mem_nil ?_
      rintro ⟨next, hprecedes, -⟩
      obtain ⟨b', hb', hnext'⟩ := precedes_iff.1 hprecedes
      obtain rfl := Option.some.inj (hb.symm.trans hb')
      exact nomatch hnext.symm.trans hnext'
    | some next =>
      have hprecedes : w.Precedes id next := precedes_iff.2 ⟨b, hb, hnext⟩
      have hparent := hw.parent?_of_precedes hprecedes
      rw [Option.map_some, Option.getD_some, ih next (.single hparent),
        and_iff_right (contains_of_parent? hparent)]
      refine ⟨fun h => ⟨next, hprecedes, h⟩, ?_⟩
      rintro ⟨next', hprecedes', h⟩
      exact Option.some.inj (hprecedes.symm.trans hprecedes') ▸ h

theorem contains_of_mem_chain (h : x ∈ w.chain id) : w.contains x = true := by
  obtain ⟨hid, hreach⟩ := hw.mem_chain_iff.1 h
  rcases Relation.ReflTransGen.cases_tail hreach with rfl | ⟨y, -, hy⟩
  · exact hid
  · exact contains_of_parent? (hw.parent?_of_precedes hy)

variable (hw' : w'.Consistent)
include hw'

theorem chain_congr (h : ∀ x, x = id ∨ w.Above id x → w'.find? x = w.find? x) :
    w'.chain id = w.chain id := by
  refine hw.below_induction (P := fun id =>
    (∀ x, x = id ∨ w.Above id x → w'.find? x = w.find? x) → w'.chain id = w.chain id) ?_ id h
  intro id ih h
  have hid := h id (.inl rfl)
  cases hb : w.find? id with
  | none =>
    rw [chain, chain, chainWithin_of_none hb, chainWithin_of_none (hid.trans hb)]
  | some b =>
    rw [hw.chain_eq hb, hw'.chain_eq (hid.trans hb)]
    cases hnext : b.next with
    | none => rfl
    | some next =>
      have hparent := hw.parent?_of_precedes (precedes_iff.2 ⟨b, hb, hnext⟩)
      exact congrArg (id :: ·) (ih next (.single hparent) fun x hx => h x (.inr
        (hx.elim (fun heq => heq ▸ .single hparent) (Relation.TransGen.head hparent))))

/-- Of the block itself the walk looks only at what comes next. -/
theorem chain_congr_of_next {b' : Block} (hb : w.find? id = some b) (hb' : w'.find? id = some b')
    (hnext : b'.next = b.next) (h : ∀ x, w.Above id x → w'.find? x = w.find? x) :
    w'.chain id = w.chain id := by
  rw [hw.chain_eq hb, hw'.chain_eq hb', hnext]
  cases hafter : b.next with
  | none => rfl
  | some next =>
    have hparent := hw.parent?_of_precedes (precedes_iff.2 ⟨b, hb, hafter⟩)
    refine congrArg (id :: ·) (hw.chain_congr hw' fun x hx => h x ?_)
    exact hx.elim (fun heq => heq ▸ .single hparent) (Relation.TransGen.head hparent)

/-! ### Everything a block owns -/

theorem descendants_congr (h : ∀ x, x = id ∨ w.Above id x → w'.find? x = w.find? x) :
    w'.descendants id = w.descendants id := by
  refine hw.below_induction (P := fun id =>
    (∀ x, x = id ∨ w.Above id x → w'.find? x = w.find? x) →
      w'.descendants id = w.descendants id) ?_ id h
  intro id ih h
  have hid := h id (.inl rfl)
  cases hb : w.find? id with
  | none =>
    rw [descendants, descendants, descendantsWithin_of_none hb,
      descendantsWithin_of_none (hid.trans hb)]
  | some b =>
    rw [hw.descendants_eq hb, hw'.descendants_eq (hid.trans hb)]
    refine congrArg (id :: ·) (List.flatMap_congr fun c hc => ?_)
    have hparent := hw.parent?_of_mem_children hb hc
    exact ih c (.single hparent) fun x hx => h x (.inr
      (hx.elim (fun heq => heq ▸ .single hparent) (Relation.TransGen.head hparent)))

/-- Of the block itself the walk looks only at what it owns. -/
theorem descendants_congr_of_children {b' : Block} (hb : w.find? id = some b)
    (hb' : w'.find? id = some b') (hchildren : b'.children = b.children)
    (h : ∀ x, w.Above id x → w'.find? x = w.find? x) : w'.descendants id = w.descendants id := by
  rw [hw.descendants_eq hb, hw'.descendants_eq hb', hchildren]
  refine congrArg (id :: ·) (List.flatMap_congr fun c hc => ?_)
  have hparent := hw.parent?_of_mem_children hb hc
  exact hw.descendants_congr hw' fun x hx => h x (hx.elim (fun heq => heq ▸ .single hparent)
    (Relation.TransGen.head hparent))

omit hw'

/-! ### Within a slot -/

/-- What lies in a slot is in the chain of the block that the slot holds. -/
theorem exists_mem_chain_of_encloses (h : w.Encloses p x) :
    ∃ head, w.InSlot p head ∧ x ∈ w.chain head := by
  induction h with
  | slot hslot =>
    exact ⟨_, hslot, hw.mem_chain_iff.2 ⟨contains_of_parent? (hw.parent?_of_inSlot hslot), .refl⟩⟩
  | next _ hnext ih =>
    obtain ⟨head, hslot, hmem⟩ := ih
    obtain ⟨hcontains, hreach⟩ := hw.mem_chain_iff.1 hmem
    exact ⟨head, hslot, hw.mem_chain_iff.2 ⟨hcontains, hreach.tail hnext⟩⟩

/-- Nothing comes after an expression. -/
theorem chain_of_isExpression (hb : w.find? id = some b) (h : b.shape.isExpression = true) :
    w.chain id = [id] := by
  rw [hw.chain_eq hb]
  cases hnext : b.next with
  | none => rfl
  | some next =>
    have hparent := hw.parent?_of_precedes (precedes_iff.2 ⟨b, hb, hnext⟩)
    obtain ⟨after, hafter⟩ := contains_iff_find?.1 (contains_of_parent? hparent)
    have hhas := ((hw.admits hb hafter).2 hnext).1
    cases hshape : b.shape with
    | statement => exact nomatch (hshape ▸ h :)
    | expression => exact nomatch (hshape ▸ hhas :)

/-- What is below a block in a slot lies in the slot, at some depth. -/
theorem transGen_encloses_of_above (h : w.Encloses p c) (hx : x = c ∨ w.Above c x) :
    Relation.TransGen w.Encloses p x := by
  rcases hx with rfl | hx
  · exact .single h
  · induction hx with
    | single hx =>
      rcases hw.inSlot_or_precedes hx with hslot | hnext
      · exact .tail (.single h) (.slot hslot)
      · exact .single (h.next hnext)
    | tail _ hx ih =>
      rcases hw.inSlot_or_precedes hx with hslot | hnext
      · exact ih.tail (.slot hslot)
      · obtain ⟨q, hpq, hq⟩ := Relation.TransGen.tail'_iff.1 ih
        exact Relation.TransGen.tail' hpq (.next hq hnext)

theorem rootOf_of_above (h : w.Above p c) : w.rootOf c = w.rootOf p := by
  induction h with
  | single h => exact hw.rootOf_of_parent? h
  | tail _ h ih => exact (hw.rootOf_of_parent? h).trans ih

/-- Something around a block in a slot is disabled just if the block with the slot is, or something
around that. -/
theorem exists_off_iff (h : w.Encloses p c) :
    (∃ q, Relation.TransGen w.Encloses q c ∧ w.IsOff q) ↔
      w.IsOff p ∨ ∃ q, Relation.TransGen w.Encloses q p ∧ w.IsOff q := by
  constructor
  · rintro ⟨q, hq, hoff⟩
    obtain ⟨p', hq, hp'⟩ := Relation.TransGen.tail'_iff.1 hq
    obtain rfl := hw.encloses_unique h hp'
    rcases Relation.reflTransGen_iff_eq_or_transGen.1 hq with rfl | hq
    · exact .inl hoff
    · exact .inr ⟨q, hq, hoff⟩
  · rintro (hoff | ⟨q, hq, hoff⟩)
    · exact ⟨p, .single h, hoff⟩
    · exact ⟨q, hq.tail h, hoff⟩

end Consistent

end ScriptBlocks.Workspace
