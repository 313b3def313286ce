import ScriptBlocks.Proofs.Workspace.Walk

/-!
# Enclosing blocks

An owner either encloses a block, which then lies in one of its slots, or merely precedes it in its
chain. The chain in a slot lies in the slot as a whole, so a block is enclosed by what encloses the
statement before it. The walk that looks for the enclosing block finds just that, and the top of a
stack is reached through owners of both kinds.

## Main definitions

* `Workspace.Precedes`, `Workspace.InSlot` — the two kinds of owners
* `Workspace.Encloses` — the block in whose slot a block lies
* `Workspace.IsOff` — a disabled block

## Main statements

* `Workspace.Consistent.surroundParent_eq_some_iff` — the walk finds the enclosing block
* `Workspace.Consistent.isDisabled_iff` — only what encloses a block disables it
* `Workspace.Consistent.rootOf_eq_iff` — the top is the only block above without an owner
* `Workspace.Consistent.exists_outermost` — the top precedes or is the outermost enclosing block
-/

namespace ScriptBlocks.Workspace

/-- The block `c` is the statement after `p` in its chain. -/
def Precedes (w : Workspace) (p c : BlockId) : Prop := (w.find? p).bind Block.next = some c

/-- A slot of the block `p` holds the block `c`. -/
def InSlot (w : Workspace) (p c : BlockId) : Prop :=
  ∃ b, w.find? p = some b ∧ ∃ s ∈ b.slots.values, s.occupant = some c

/-- The block lies in a slot of the block `p`: the slot holds it, or it comes after a statement that
lies there. -/
inductive Encloses (w : Workspace) (p : BlockId) : BlockId → Prop where
  | slot {c : BlockId} (h : w.InSlot p c) : Encloses w p c
  | next {a c : BlockId} (h : Encloses w p a) (hnext : w.Precedes a c) : Encloses w p c

/-- The block is there and disabled. -/
def IsOff (w : Workspace) (id : BlockId) : Prop := ∃ b, w.find? id = some b ∧ b.enabled = false

variable {w : Workspace} {id p c a r : BlockId} {b : Block}

theorem precedes_iff : w.Precedes p c ↔ ∃ b, w.find? p = some b ∧ b.next = some c :=
  Option.bind_eq_some_iff

theorem firstSurrounding_cons_of_precedes (h : w.Precedes p c) (l : List BlockId) :
    w.firstSurrounding c (p :: l) = w.firstSurrounding p l :=
  if_pos h

theorem firstSurrounding_cons_of_not_precedes (h : ¬ w.Precedes p c) (l : List BlockId) :
    w.firstSurrounding c (p :: l) = some p :=
  if_neg h

theorem surroundParent_of_root (h : w.parent? c = none) : w.surroundParent c = none := by
  rw [surroundParent, ancestors_of_root h, firstSurrounding]

theorem rootOf_of_root (h : w.parent? id = none) : w.rootOf id = id := by
  rw [rootOf, ancestors_of_root h]
  rfl

namespace Consistent

variable (hw : w.Consistent)
include hw

/-! ### Owners of both kinds -/

theorem parent?_of_precedes (h : w.Precedes p c) : w.parent? c = some p := by
  obtain ⟨b, hb, hnext⟩ := precedes_iff.1 h
  refine hw.parent?_of_mem_children hb (List.mem_append_right _ ?_)
  rw [hnext]
  exact List.mem_singleton_self c

theorem parent?_of_inSlot (h : w.InSlot p c) : w.parent? c = some p := by
  obtain ⟨b, hb, s, hs, hoccupant⟩ := h
  exact hw.parent?_of_mem_children hb
    (List.mem_append_left _ (List.mem_filterMap.2 ⟨s, hs, hoccupant⟩))

theorem not_precedes_of_inSlot (h : w.InSlot p c) : ¬ w.Precedes p c := by
  obtain ⟨b, hb, s, hs, hoccupant⟩ := h
  intro hnext
  obtain ⟨b', hb', hnext⟩ := precedes_iff.1 hnext
  obtain rfl := Option.some.inj (hb.symm.trans hb')
  have hnodup := hw.nodup_children_of_find? hb
  rw [Block.children, hnext] at hnodup
  exact (List.nodup_append.1 hnodup).2.2 c (List.mem_filterMap.2 ⟨s, hs, hoccupant⟩) c
    (List.mem_singleton_self c) rfl

/-- An owner encloses a block or precedes it. -/
theorem inSlot_or_precedes (h : w.parent? c = some p) : w.InSlot p c ∨ w.Precedes p c := by
  obtain ⟨child, hc, howner⟩ := parent?_eq_some_iff.1 h
  obtain ⟨b, hb, hmem⟩ := hw.mem_children_of_parent hc howner
  rcases List.mem_append.1 hmem with hmem | hmem
  · obtain ⟨s, hs, hoccupant⟩ := List.mem_filterMap.1 hmem
    exact .inl ⟨b, hb, s, hs, hoccupant⟩
  · exact .inr (precedes_iff.2 ⟨b, hb, Option.mem_toList.1 hmem⟩)

/-- What holds of a block if it holds of its owner holds of all blocks. -/
theorem owner_induction {P : BlockId → Prop}
    (step : ∀ id, (∀ p, w.parent? id = some p → P p) → P id) (id : BlockId) : P id := by
  generalize hdepth : w.depth id = n
  induction n generalizing id with
  | zero =>
    refine step id fun p hp => ?_
    rw [hw.depth_of_parent? hp] at hdepth
    exact nomatch hdepth
  | succ n ih =>
    refine step id fun p hp => ih p ?_
    rw [hw.depth_of_parent? hp] at hdepth
    exact Nat.succ.inj hdepth

theorem depth_lt_of_above (h : w.Above a c) : w.depth a < w.depth c := by
  induction h with
  | single h => exact Nat.lt_of_lt_of_eq (Nat.lt_succ_self _) (hw.depth_of_parent? h).symm
  | tail _ h ih =>
    rw [hw.depth_of_parent? h]
    exact Nat.lt_succ_of_lt ih

theorem above_of_transGen_precedes (h : Relation.TransGen w.Precedes a c) : w.Above a c := by
  induction h with
  | single h => exact .single (hw.parent?_of_precedes h)
  | tail _ h ih => exact ih.tail (hw.parent?_of_precedes h)

theorem above_of_encloses (h : w.Encloses p c) : w.Above p c := by
  induction h with
  | slot h => exact .single (hw.parent?_of_inSlot h)
  | next _ hnext ih => exact ih.tail (hw.parent?_of_precedes hnext)

theorem above_of_transGen_encloses (h : Relation.TransGen w.Encloses p c) : w.Above p c := by
  induction h with
  | single h => exact hw.above_of_encloses h
  | tail _ h ih => exact ih.trans (hw.above_of_encloses h)

/-! ### The walk to the enclosing block -/

theorem surroundParent_of_precedes (h : w.Precedes p c) :
    w.surroundParent c = w.surroundParent p := by
  rw [surroundParent, hw.ancestors_eq_cons (hw.parent?_of_precedes h),
    firstSurrounding_cons_of_precedes h, surroundParent]

theorem surroundParent_of_inSlot (h : w.InSlot p c) : w.surroundParent c = some p := by
  rw [surroundParent, hw.ancestors_eq_cons (hw.parent?_of_inSlot h),
    firstSurrounding_cons_of_not_precedes (hw.not_precedes_of_inSlot h)]

/-- The walk past the statements before a block finds the block in whose slot it lies. -/
theorem surroundParent_eq_some_iff : w.surroundParent c = some p ↔ w.Encloses p c := by
  constructor
  · refine hw.owner_induction (P := fun c => w.surroundParent c = some p → w.Encloses p c) ?_ c
    intro c ih h
    cases howner : w.parent? c with
    | none =>
      rw [surroundParent_of_root howner] at h
      exact nomatch h
    | some q =>
      rcases hw.inSlot_or_precedes howner with hslot | hnext
      · rw [hw.surroundParent_of_inSlot hslot] at h
        exact .slot (Option.some.inj h ▸ hslot)
      · rw [hw.surroundParent_of_precedes hnext] at h
        exact .next (ih q howner h) hnext
  · intro h
    induction h with
    | slot h => exact hw.surroundParent_of_inSlot h
    | next _ hnext ih => rw [hw.surroundParent_of_precedes hnext, ih]

theorem surroundParent_eq_encloses : (fun p c => w.surroundParent c = some p) = w.Encloses :=
  funext₂ fun _ _ => propext hw.surroundParent_eq_some_iff

/-- No two blocks enclose a block at once. -/
theorem encloses_unique {q : BlockId} (h : w.Encloses p c) (h' : w.Encloses q c) : p = q := by
  rw [← hw.surroundParent_eq_some_iff] at h h'
  exact Option.some.inj (h.symm.trans h')

/-- What a statement precedes is enclosed by the same block as the statement. -/
theorem encloses_of_precedes_iff (h : w.Precedes a c) : w.Encloses p c ↔ w.Encloses p a := by
  rw [← hw.surroundParent_eq_some_iff, ← hw.surroundParent_eq_some_iff,
    hw.surroundParent_of_precedes h]

theorem encloses_of_transGen_precedes_iff (h : Relation.TransGen w.Precedes a c) :
    w.Encloses p c ↔ w.Encloses p a := by
  induction h with
  | single h => exact hw.encloses_of_precedes_iff h
  | tail _ h ih => rw [hw.encloses_of_precedes_iff h, ih]

/-- A statement that precedes a block neither is the block nor encloses it at any depth. -/
theorem not_encloses_of_precedes (h : Relation.TransGen w.Precedes a c) :
    a ≠ c ∧ ¬ Relation.TransGen w.Encloses a c := by
  have habove := hw.above_of_transGen_precedes h
  refine ⟨fun heq => hw.acyclic (heq ▸ habove), fun hencloses => ?_⟩
  obtain ⟨p, hp, hencloses⟩ := Relation.TransGen.tail'_iff.1 hencloses
  -- what encloses the block encloses the statement before it, which would lie beneath itself
  have hpa := hw.above_of_encloses ((hw.encloses_of_transGen_precedes_iff h).1 hencloses)
  rcases Relation.reflTransGen_iff_eq_or_transGen.1 hp with rfl | hp
  · exact hw.acyclic hpa
  · exact hw.acyclic ((hw.above_of_transGen_encloses hp).trans hpa)

/-! ### Disabled blocks -/

theorem isDisabledWithin_iff {n : Nat} (h : w.contains id = true) (hn : w.depth id < n) :
    w.isDisabledWithin n id = true ↔
      w.IsOff id ∨ ∃ p, Relation.TransGen w.Encloses p id ∧ w.IsOff p := by
  induction n generalizing id with
  | zero => exact absurd hn (Nat.not_lt_zero _)
  | succ n ih =>
    obtain ⟨b, hb⟩ := contains_iff_find?.1 h
    have hoff : w.IsOff id ↔ b.enabled = false :=
      ⟨fun ⟨b', hb', henabled⟩ => Option.some.inj (hb.symm.trans hb') ▸ henabled,
        fun henabled => ⟨b, hb, henabled⟩⟩
    rw [isDisabledWithin, hb, hoff]
    simp only [Bool.or_eq_true, Bool.not_eq_true']
    refine or_congr_right ?_
    cases hsurround : w.surroundParent id with
    | none =>
      refine iff_of_false Bool.false_ne_true ?_
      rintro ⟨p, hp, -⟩
      obtain ⟨q, -, hq⟩ := Relation.TransGen.tail'_iff.1 hp
      rw [← hw.surroundParent_eq_some_iff, hsurround] at hq
      exact nomatch hq
    | some q =>
      have hq := hw.surroundParent_eq_some_iff.1 hsurround
      have habove := hw.above_of_encloses hq
      have hdepth := hw.depth_lt_of_above habove
      refine (ih (hw.contains_left habove) (by omega)).trans ⟨?_, ?_⟩
      · rintro (hoff | ⟨p, hp, hoff⟩)
        · exact ⟨q, .single hq, hoff⟩
        · exact ⟨p, hp.tail hq, hoff⟩
      · rintro ⟨p, hp, hoff⟩
        obtain ⟨q', hp, hq'⟩ := Relation.TransGen.tail'_iff.1 hp
        obtain rfl := hw.encloses_unique hq hq'
        rcases Relation.reflTransGen_iff_eq_or_transGen.1 hp with rfl | hp
        · exact .inl hoff
        · exact .inr ⟨p, hp, hoff⟩

/-- A block counts as disabled if it is, or if some block around it is. -/
theorem isDisabled_iff (h : w.contains id = true) : w.isDisabled id = true ↔
    w.IsOff id ∨ ∃ p, Relation.TransGen w.Encloses p id ∧ w.IsOff p :=
  hw.isDisabledWithin_iff h (Nat.lt_succ_of_lt (hw.depth_lt_size h))

/-! ### The top -/

theorem rootOf_of_parent? (h : w.parent? id = some p) : w.rootOf id = w.rootOf p := by
  rw [rootOf, rootOf, hw.ancestors_eq_cons h, List.getLast?_cons]
  rfl

/-- The top of a stack is the one block without an owner among a block and those above it. -/
theorem rootOf_eq_iff : w.rootOf id = r ↔ (r = id ∨ w.Above r id) ∧ w.parent? r = none := by
  refine hw.owner_induction
    (P := fun id => w.rootOf id = r ↔ (r = id ∨ w.Above r id) ∧ w.parent? r = none) ?_ id
  intro id ih
  cases howner : w.parent? id with
  | none =>
    rw [rootOf_of_root howner]
    constructor
    · rintro rfl
      exact ⟨.inl rfl, howner⟩
    · rintro ⟨rfl | habove, -⟩
      · rfl
      · exact absurd habove (not_above_of_root howner)
  | some p =>
    rw [hw.rootOf_of_parent? howner, ih p howner]
    refine and_congr_left fun hroot => ⟨?_, ?_⟩
    · rintro (rfl | habove)
      · exact .inr (.single howner)
      · exact .inr (habove.tail howner)
    · rintro (rfl | habove)
      · exact nomatch hroot.symm.trans howner
      · exact habove.eq_or_above howner

/-- The top of a stack is the outermost block around a block, or precedes it in its chain. -/
theorem exists_outermost (id : BlockId) : ∃ m, (m = id ∨ Relation.TransGen w.Encloses m id) ∧
    (w.rootOf id = m ∨ Relation.TransGen w.Precedes (w.rootOf id) m) := by
  refine hw.owner_induction (P := fun id => ∃ m, (m = id ∨ Relation.TransGen w.Encloses m id) ∧
    (w.rootOf id = m ∨ Relation.TransGen w.Precedes (w.rootOf id) m)) ?_ id
  intro id ih
  cases howner : w.parent? id with
  | none => exact ⟨id, .inl rfl, .inl (rootOf_of_root howner)⟩
  | some p =>
    obtain ⟨m, hm, hroot⟩ := ih p howner
    rw [hw.rootOf_of_parent? howner]
    rcases hw.inSlot_or_precedes howner with hslot | hnext
    · refine ⟨m, .inr ?_, hroot⟩
      rcases hm with heq | hm
      · exact heq ▸ .single (.slot hslot)
      · exact hm.tail (.slot hslot)
    · rcases hm with heq | hm
      · -- the chain of the top goes on
        rw [← heq] at hnext
        refine ⟨id, .inl rfl, .inr ?_⟩
        rcases hroot with hroot | hroot
        · exact .single (hroot ▸ hnext)
        · exact hroot.tail hnext
      · obtain ⟨q, hm, hq⟩ := Relation.TransGen.tail'_iff.1 hm
        exact ⟨m, .inr (Relation.TransGen.tail' hm (.next hq hnext)), hroot⟩

end Consistent

end ScriptBlocks.Workspace
