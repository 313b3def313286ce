import ScriptBlocks.Proofs.Workspace.Change

/-!
# Links made and links dropped

A link may be made to a block without an owner that is not above the block it is linked from, a link
may be dropped, and blocks may be forgotten together with all that is linked to them. Each keeps a
workspace consistent.

## Main definitions

* `Block.Gains`, `Block.Drops` — what one link more and one link less make of a block

## Main statements

* `Workspace.Consistent.attach` — a link made
* `Workspace.Consistent.detach` — a link dropped
* `Workspace.Consistent.forget` — blocks forgotten
-/

namespace ScriptBlocks

namespace Block

/-- The block `b'` is `b` with one more link, to `child`, which goes by the id `c`. -/
structure Gains (b b' : Block) (c : BlockId) (child : Block) : Prop where
  id_eq : b'.id = b.id
  parent_eq : b'.parent = b.parent
  shape_eq : b'.shape = b.shape
  children : b'.children.Perm (c :: b.children)
  admits_new : b'.Admits c child
  admits_old {x : BlockId} {other : Block} : x ≠ c → b.Admits x other → b'.Admits x other

/-- The block `b'` is `b` without its link to `c`. -/
structure Drops (b b' : Block) (c : BlockId) : Prop where
  id_eq : b'.id = b.id
  parent_eq : b'.parent = b.parent
  shape_eq : b'.shape = b.shape
  children : b'.children = b.children.filter (· ≠ c)
  admits {x : BlockId} {other : Block} : b.Admits x other → b'.Admits x other

/-- A slot that is emptied when it holds `c` keeps any other occupant. -/
theorem occupant_release_slot (s : Slot) (c : BlockId) :
    (if s.occupant = some c then s.hold none else s).occupant = s.occupant.filter (· ≠ c) := by
  split
  · next h =>
    rw [h]
    cases s <;> simp [Slot.hold, Slot.occupant, Option.filter]
  · next h =>
    cases ho : s.occupant with
    | none => rfl
    | some d =>
      have hne : d ≠ c := fun e => h (ho.trans (congrArg some e))
      simp [Option.filter, hne]

theorem filterMap_occupant_release (l : List Slot) (c : BlockId) :
    (l.map fun s => if s.occupant = some c then s.hold none else s).filterMap Slot.occupant =
      (l.filterMap Slot.occupant).filter (· ≠ c) := by
  induction l with
  | nil => rfl
  | cons s rest ih =>
    rw [List.map_cons, List.filterMap_cons, List.filterMap_cons, occupant_release_slot, ih]
    cases ho : s.occupant with
    | none => rfl
    | some d =>
      by_cases hd : d = c
      · simp [Option.filter, hd]
      · simp [Option.filter, hd]

theorem drops_release {b : Block} {c : BlockId} (hnodup : b.children.Nodup) :
    b.Drops (b.release c) c := by
  rw [release]
  split
  · next hnext =>
    rw [children, hnext, Option.toList_some, List.nodup_append] at hnodup
    have hnot : ∀ x ∈ b.slots.values.filterMap Slot.occupant, decide (x ≠ c) = true :=
      fun x hx => decide_eq_true (hnodup.2.2 x hx c (List.mem_singleton_self c))
    refine ⟨rfl, rfl, rfl, ?_, fun h => ⟨h.1, by rintro ⟨⟩⟩⟩
    rw [children, children, hnext, Option.toList_some, List.filter_append,
      List.filter_eq_self.2 hnot]
    simp
  · next hnext =>
    refine ⟨rfl, rfl, rfl, ?_, fun h => ⟨fun s hs ho => ?_, h.2⟩⟩
    · have hkeep : b.next.toList.filter (· ≠ c) = b.next.toList := by
        refine List.filter_eq_self.2 fun x hx => decide_eq_true ?_
        rintro rfl
        exact hnext (Option.mem_toList.1 hx)
      rw [children, children, List.filter_append, hkeep, ← filterMap_occupant_release]
      simp [OrderedMap.values, OrderedMap.mapValues, Function.comp_def]
    · obtain ⟨e, he, rfl⟩ := List.mem_map.1 hs
      obtain ⟨e', he', rfl⟩ := List.mem_map.1 he
      simp only at ho ⊢
      split at ho
      · cases hslot : e'.2 <;> rw [hslot] at ho <;> cases ho
      · next hs' =>
        rw [if_neg hs']
        exact h.1 e'.2 (List.mem_map_of_mem he') ho

end Block

namespace Workspace

variable {w : Workspace} {id p c x : BlockId} {b child : Block}

/-! ### One block relinked to another -/

section Relink

variable {f : Block → Block} {q : Option BlockId}
  (hp : w.find? p = some b) (hc : w.find? c = some child) (hne : c ≠ p)

include hp hc hne

theorem find?_relink : ((w.modify p f).modify c fun b => { b with parent := q }).find? x =
    if x = c then some { child with parent := q } else if x = p then some (f b)
    else w.find? x := by
  rw [find?_modify]
  split
  · next h => rw [find?_modify, if_neg (h ▸ hne), h, hc, Option.map_some]
  · rw [find?_modify]
    split
    · next h => rw [h, hp, Option.map_some]
    · rfl

theorem parent?_relink (hparent : (f b).parent = b.parent) :
    ((w.modify p f).modify c fun b => { b with parent := q }).parent? x =
      if x = c then q else w.parent? x := by
  rw [parent?, find?_relink hp hc hne]
  split
  · rfl
  · split
    · next h => rw [h, parent?_of_find? hp]; exact hparent
    · rfl

theorem childrenOf_relink :
    ((w.modify p f).modify c fun b => { b with parent := q }).childrenOf x =
      if x = p then (f b).children else w.childrenOf x := by
  rw [childrenOf, find?_relink hp hc hne]
  split
  · next h => rw [h, if_neg hne, childrenOf_of_find? hc]; rfl
  · split <;> rfl

/-- Relinking keeps a workspace consistent when the two records of the link agree afterwards. -/
theorem Consistent.relink (hw : w.Consistent) (hid : (f b).id = b.id)
    (hshape : (f b).shape = b.shape)
    (hadmits : ∀ y other, w.find? y = some other → (f b).Admits y other)
    (hmem : ∀ x y, (y ∈ if x = p then (f b).children else w.childrenOf x) ↔
      ((w.modify p f).modify c fun b => { b with parent := q }).parent? y = some x)
    (hnodup : (f b).children.Nodup)
    (hacyclic : ∀ x, ¬ ((w.modify p f).modify c fun b => { b with parent := q }).Above x x) :
    ((w.modify p f).modify c fun b => { b with parent := q }).Consistent where
  sorted := hw.sorted
  mem_order := by
    intro x
    rw [contains_modify, contains_modify]
    exact hw.mem_order
  le_lastId h := by
    rw [contains_modify, contains_modify] at h
    exact hw.le_lastId h
  id_eq {x y} h := by
    rw [find?_relink hp hc hne] at h
    split at h
    · next hx => rw [← Option.some.inj h, hx]; exact (hw.id_eq hc :)
    · split at h
      · next hx => rw [← Option.some.inj h, hx]; exact hid.trans (hw.id_eq hp)
      · exact hw.id_eq h
  mem_children := by
    intro x y
    rw [childrenOf_relink hp hc hne]
    exact hmem x y
  nodup_children x := by
    rw [childrenOf_relink hp hc hne]
    split
    · exact hnodup
    · exact hw.nodup_children x
  acyclic := hacyclic _
  admits {x y d other} hd hother := by
    -- The far end of a link differs from an old block at most in its owner or its links.
    obtain ⟨other', hother', hsame⟩ : ∃ z, w.find? y = some z ∧ other.shape = z.shape := by
      rw [find?_relink hp hc hne] at hother
      split at hother
      · next hy => exact ⟨child, hy ▸ hc, by rw [← Option.some.inj hother]⟩
      · split at hother
        · next hy => exact ⟨b, hy ▸ hp, by rw [← Option.some.inj hother]; exact hshape⟩
        · exact ⟨other, hother, rfl⟩
    refine Block.Admits.of_shape_eq ?_ hsame
    rw [find?_relink hp hc hne] at hd
    split at hd
    · have := hw.admits hc hother'
      rw [← Option.some.inj hd]
      exact this
    · split at hd
      · rw [← Option.some.inj hd]
        exact hadmits y other' hother'
      · exact hw.admits hd hother'

/-- A new link puts what is above its owner above what is below the other end, and nothing else. -/
theorem above_of_above_own (hparent : (f b).parent = b.parent) {a d : BlockId}
    (h : ((w.modify p f).own p c).Above a d) :
    w.Above a d ∨ (a = p ∨ w.Above a p) ∧ (d = c ∨ w.Above c d) := by
  have hstep {x y : BlockId} (hxy : ((w.modify p f).own p c).parent? y = some x) :
      (x = p ∧ y = c) ∨ w.parent? y = some x := by
    rw [own, parent?_relink hp hc hne hparent] at hxy
    split at hxy
    · next hy => exact .inl ⟨(Option.some.inj hxy).symm, hy⟩
    · exact .inr hxy
  induction h with
  | single h =>
    rcases hstep h with ⟨rfl, rfl⟩ | h
    · exact .inr ⟨.inl rfl, .inl rfl⟩
    · exact .inl (.single h)
  | @tail y z _ h ih =>
    rcases hstep h with ⟨rfl, rfl⟩ | hold
    · rcases ih with ih | ⟨ih, -⟩
      · exact .inr ⟨.inr ih, .inl rfl⟩
      · exact .inr ⟨ih, .inl rfl⟩
    · rcases ih with ih | ⟨ih, hbelow⟩
      · exact .inl (ih.tail hold)
      · refine .inr ⟨ih, .inr ?_⟩
        rcases hbelow with rfl | hbelow
        · exact .single hold
        · exact hbelow.tail hold

theorem Consistent.attach (hw : w.Consistent) (hroot : child.parent = none)
    (hacyclic : ¬ w.Above c p) (hgain : b.Gains (f b) c child) :
    ((w.modify p f).own p c).Consistent := by
  have hcnone : w.parent? c = none := (parent?_of_find? hc).trans hroot
  refine hw.relink hp hc hne hgain.id_eq hgain.shape_eq ?_ ?_ ?_ ?_
  · intro y other hother
    by_cases hy : y = c
    · rw [hy, hc] at hother
      rw [hy, ← Option.some.inj hother]
      exact hgain.admits_new
    · exact hgain.admits_old hy (hw.admits hp hother)
  · intro x y
    have hold : y ∈ w.childrenOf x ↔ w.parent? y = some x := hw.mem_children
    rw [parent?_relink hp hc hne hgain.parent_eq]
    split
    · next hx =>
      subst hx
      rw [hgain.children.mem_iff, List.mem_cons, ← childrenOf_of_find? hp, hold]
      split
      · next hy => exact iff_of_true (.inl hy) rfl
      · next hy => exact or_iff_right hy
    · next hx =>
      rw [hold]
      split
      · next hy =>
        rw [hy, hcnone]
        exact iff_of_false nofun fun h => hx (Option.some.inj h).symm
      · exact Iff.rfl
  · refine hgain.children.nodup_iff.2 (List.nodup_cons.2 ⟨fun hmem => ?_, ?_⟩)
    · exact nomatch hcnone.symm.trans (hw.parent?_of_mem_children hp hmem)
    · exact hw.nodup_children_of_find? hp
  · intro x h
    rcases above_of_above_own hp hc hne hgain.parent_eq h with h | ⟨hup, hdown⟩
    · exact hw.acyclic h
    · -- The circle would go through the new link, so the child would have been above the owner.
      rcases hup with rfl | hup
      · rcases hdown with rfl | hdown
        · exact hne rfl
        · exact hacyclic hdown
      · rcases hdown with rfl | hdown
        · exact hacyclic hup
        · exact hacyclic (hdown.trans hup)

theorem Consistent.detach (hw : w.Consistent) (howner : child.parent = some p)
    (hdrop : b.Drops (f b) c) :
    ((w.modify p f).modify c fun b => { b with parent := none }).Consistent := by
  have hcp : w.parent? c = some p := (parent?_of_find? hc).trans howner
  refine hw.relink hp hc hne hdrop.id_eq hdrop.shape_eq ?_ ?_ ?_ ?_
  · exact fun y other hother => hdrop.admits (hw.admits hp hother)
  · intro x y
    have hold : y ∈ w.childrenOf x ↔ w.parent? y = some x := hw.mem_children
    rw [parent?_relink hp hc hne hdrop.parent_eq]
    split
    · next hx =>
      subst hx
      rw [hdrop.children, List.mem_filter, ← childrenOf_of_find? hp, hold, decide_eq_true_iff]
      split
      · next hy => exact iff_of_false (fun h => h.2 hy) nofun
      · next hy => exact and_iff_left hy
    · next hx =>
      rw [hold]
      split
      · next hy =>
        rw [hy, hcp]
        exact iff_of_false (fun h => hx (Option.some.inj h).symm) nofun
      · exact Iff.rfl
  · rw [hdrop.children]
    exact (hw.nodup_children_of_find? hp).filter _
  · intro x h
    refine hw.acyclic (h.mono fun y z hp' => ?_)
    rw [parent?_relink hp hc hne hdrop.parent_eq] at hp'
    split at hp'
    · exact nomatch hp'
    · exact hp'

end Relink

/-! ### Forgetting -/

theorem Consistent.forget {ids : List BlockId} (hw : w.Consistent)
    (hclosed : ∀ p c, w.parent? c = some p → (c ∈ ids ↔ p ∈ ids)) : (w.forget ids).Consistent := by
  have hparent (y : BlockId) :
      (w.forget ids).parent? y = if y ∈ ids then none else w.parent? y := by
    rw [parent?, find?_forget]
    split <;> rfl
  have hchildren (y : BlockId) :
      (w.forget ids).childrenOf y = if y ∈ ids then [] else w.childrenOf y := by
    rw [childrenOf, find?_forget]
    split <;> rfl
  have hfind {y : BlockId} {d : Block} (h : (w.forget ids).find? y = some d) :
      w.find? y = some d := by
    rw [find?_forget] at h
    split at h
    · cases h
    · exact h
  have hcontains (y : BlockId) :
      (w.forget ids).contains y = true ↔ y ∉ ids ∧ w.contains y = true := by
    rw [contains_iff_find?, contains_iff_find?, find?_forget]
    split
    · next h => exact iff_of_false (by rintro ⟨_, ⟨⟩⟩) fun h' => h'.1 h
    · next h => exact (and_iff_right h).symm
  exact
    { sorted := hw.sorted.filter _
      mem_order := by
        intro x
        rw [hcontains, Workspace.forget, List.mem_filter, hw.mem_order]
        simp [and_comm]
      le_lastId h := hw.le_lastId ((hcontains _).1 h).2
      id_eq h := hw.id_eq (hfind h)
      mem_children := by
        intro x y
        rw [hchildren, hparent]
        split
        · next hx =>
          split
          · exact iff_of_false List.not_mem_nil (Option.some_ne_none x).symm
          · next hy => exact iff_of_false List.not_mem_nil fun h => hy ((hclosed _ _ h).2 hx)
        · next hx =>
          split
          · next hy =>
            exact iff_of_false (fun h => hx ((hclosed _ _ (hw.mem_children.1 h)).1 hy))
              (Option.some_ne_none x).symm
          · exact hw.mem_children
      nodup_children x := by
        rw [hchildren]
        split
        · exact .nil
        · exact hw.nodup_children x
      acyclic h := by
        refine hw.acyclic (h.mono fun y z hp => ?_)
        rw [hparent] at hp
        split at hp
        · cases hp
        · exact hp
      admits hd hother := hw.admits (hfind hd) (hfind hother) }

end Workspace

end ScriptBlocks
