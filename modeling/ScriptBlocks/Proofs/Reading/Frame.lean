import ScriptBlocks.Proofs.Workspace.Create
import ScriptBlocks.Proofs.Workspace.Removal
import ScriptBlocks.Reading

/-!
# What building leaves alone

Blocks are built above all ids that were given out before, so an old block is touched only where
something is attached to it. The relations here say how far a step of reading has got: it has left
everything as it was, it has built a tree of new blocks, or it has hung new blocks beneath one
block.

## Main definitions

* `Workspace.Room`, `Workspace.Spends` — ids that are left, and ids that were given out
* `Workspace.Extends` — every old block is as it was
* `Workspace.Leaves` — and there is no new one
* `Workspace.Builds` — and the new ones are one tree
* `Workspace.Grows` — the new ones hang beneath one block, in some of its slots

## Main statements

* `Workspace.Builds.grows` — a new block with new blocks beneath it is a tree of new blocks
* `Workspace.Builds.discard` — discarding a new tree leaves everything as it was
* `Workspace.Builds.connectValue` — a new tree is plugged into a slot, or nothing has changed
-/

namespace ScriptBlocks.Workspace

variable {w w₁ w' : Workspace} {id p c x : BlockId} {b : Block} {form slot : String}

/-- At least `n` more ids can be given out before they start again from zero. -/
def Room (w : Workspace) (n : Nat) : Prop := w.lastId + n < wordLimit

/-- From `w` to `w'` so many ids were given out. -/
def Spends (w w' : Workspace) (n : Nat) : Prop := w'.lastId = w.lastId + n

/-- `w'` has every block of `w` as it was. Ids that `w` has given out stay with their blocks. -/
structure Extends (w w' : Workspace) : Prop where
  consistent : w'.Consistent
  lastId_le : w.lastId ≤ w'.lastId
  variableNames_eq : w'.variableNames = w.variableNames
  find?_eq {x : BlockId} : x ≤ w.lastId → w'.find? x = w.find? x

/-- `w'` has the blocks of `w` and no others. -/
structure Leaves (w w' : Workspace) : Prop extends Extends w w' where
  find?_new {x : BlockId} : w.lastId < x → w'.find? x = none

/-- The new blocks of `w'` are a tree whose top is a block `id` of the given form. It has no owner,
and nothing follows it. -/
structure Builds (w w' : Workspace) (id : BlockId) (form : String) : Prop extends
    Extends w w' where
  lt_id : w.lastId < id
  root : ∃ b, w'.find? id = some b ∧ b.form = form ∧ b.parent = none ∧ b.next = none
  eq_or_above {x : BlockId} : w.lastId < x → w'.contains x = true → x = id ∨ w'.Above id x

/-- The new blocks of `w'` hang beneath `p`, in the slots named by `slots`. Apart from those slots
every block of `w` is as it was. -/
structure Grows (w w' : Workspace) (p : BlockId) (slots : List String) : Prop where
  consistent : w'.Consistent
  lastId_le : w.lastId ≤ w'.lastId
  variableNames_eq : w'.variableNames = w.variableNames
  find?_eq {x : BlockId} : x ≤ w.lastId → x ≠ p → w'.find? x = w.find? x
  owner {b : Block} : w.find? p = some b → ∃ s, w'.find? p = some { b with slots := s } ∧
    ∀ slot ∉ slots, s.find? slot = b.slots.find? slot
  above {x : BlockId} : w.lastId < x → w'.contains x = true → w'.Above p x

/-! ### Ids -/

theorem Room.left {m n : Nat} (h : w.Room (m + n)) : w.Room m :=
  Nat.lt_of_le_of_lt (Nat.add_le_add_left (Nat.le_add_right m n) _) h

theorem Spends.zero (w : Workspace) : w.Spends w 0 := rfl

theorem Spends.trans {m n : Nat} (h : w.Spends w₁ m) (h' : w₁.Spends w' n) :
    w.Spends w' (m + n) := by
  rw [Spends, h', h, Nat.add_assoc]

/-- What is left once a part of the ids is given out. -/
theorem Room.of_spends {m n : Nat} (h : w.Room (m + n)) (h' : w.Spends w₁ m) : w₁.Room n := by
  rw [Room, h', Nat.add_assoc]
  exact h

/-! ### Extending -/

namespace Extends

theorem refl (hw : w.Consistent) : w.Extends w := ⟨hw, Nat.le_refl _, rfl, fun _ => rfl⟩

theorem trans (h : w.Extends w₁) (h' : w₁.Extends w') : w.Extends w' where
  consistent := h'.consistent
  lastId_le := Nat.le_trans h.lastId_le h'.lastId_le
  variableNames_eq := h'.variableNames_eq.trans h.variableNames_eq
  find?_eq hx := (h'.find?_eq (Nat.le_trans hx h.lastId_le)).trans (h.find?_eq hx)

/-- Above an old block there are only old blocks. -/
theorem le_lastId_of_above (hw : w.Consistent) (h : w.Extends w') {a d : BlockId}
    (had : w'.Above a d) (hd : d ≤ w.lastId) : a ≤ w.lastId := by
  have hstep {x y : BlockId} (hxy : w'.parent? y = some x) (hy : y ≤ w.lastId) : x ≤ w.lastId := by
    rw [parent?_congr (h.find?_eq hy)] at hxy
    exact hw.le_lastId (hw.contains_parent hxy)
  induction had with
  | single had => exact hstep had hd
  | tail _ had ih => exact ih (hstep had hd)

/-- What hangs beneath a block hangs there still. -/
theorem above (hw : w.Consistent) (h : w.Extends w') {a d : BlockId} (had : w.Above a d) :
    w'.Above a d := by
  refine had.mono fun x y hxy => ?_
  rw [parent?_congr (h.find?_eq (hw.le_lastId (contains_of_parent? hxy)))]
  exact hxy

/-- The old part of the order of creation is as it was. -/
theorem order_eq (hw : w.Consistent) (h : w.Extends w') :
    w'.order.filter (· ≤ w.lastId) = w.order := by
  refine List.Perm.eq_of_pairwise (fun a d _ _ (had : a < d) hda => ?_)
    (h.consistent.sorted.filter _) hw.sorted ?_
  · exact absurd (Nat.lt_trans had hda) (Nat.lt_irrefl _)
  · refine (List.perm_ext_iff_of_nodup ?_ ?_).2 fun x => ?_
    · exact (h.consistent.sorted.filter _).imp Nat.ne_of_lt
    · exact hw.sorted.imp Nat.ne_of_lt
    · rw [List.mem_filter, decide_eq_true_iff, h.consistent.mem_order, hw.mem_order,
        contains_iff_find?, contains_iff_find?]
      constructor
      · rintro ⟨⟨b, hb⟩, hx⟩
        exact ⟨b, (h.find?_eq hx).symm.trans hb⟩
      · rintro ⟨b, hb⟩
        have hx := hw.le_lastId (contains_of_find? hb)
        exact ⟨⟨b, (h.find?_eq hx).trans hb⟩, hx⟩

end Extends

theorem Leaves.refl (hw : w.Consistent) : w.Leaves w := ⟨.refl hw, hw.find?_of_lastId_lt⟩

/-! ### Growing -/

variable {slots slots' : List String}

theorem Leaves.grows (h : w.Leaves w') (p : BlockId)
    (slots : List String) (hp : p ≤ w.lastId) : w.Grows w' p slots where
  consistent := h.consistent
  lastId_le := h.lastId_le
  variableNames_eq := h.variableNames_eq
  find?_eq hx _ := h.find?_eq hx
  owner {b} hb := ⟨b.slots, (h.find?_eq hp).trans hb, fun _ _ => rfl⟩
  above hx hcontains := absurd hcontains (find?_eq_none_iff.1 (h.find?_new hx))

namespace Grows

theorem parent?_eq (h : w.Grows w' p slots) (hx : x ≤ w.lastId) (hp : w.contains p = true) :
    w'.parent? x = w.parent? x := by
  by_cases hxp : x = p
  · obtain ⟨b, hb⟩ := contains_iff_find?.1 hp
    obtain ⟨s, hs, -⟩ := h.owner hb
    rw [hxp, parent?_of_find? hb, parent?_of_find? hs]
  · exact parent?_congr (h.find?_eq hx hxp)

theorem above_mono (hw : w.Consistent) (h : w.Grows w' p slots) (hp : w.contains p = true)
    {a d : BlockId} (had : w.Above a d) : w'.Above a d := by
  refine had.mono fun x y hxy => ?_
  rw [h.parent?_eq (hw.le_lastId (contains_of_parent? hxy)) hp]
  exact hxy

theorem trans (hw : w.Consistent) (hp : w.contains p = true) (h : w.Grows w₁ p slots)
    (h' : w₁.Grows w' p slots') : w.Grows w' p (slots ++ slots') where
  consistent := h'.consistent
  lastId_le := Nat.le_trans h.lastId_le h'.lastId_le
  variableNames_eq := h'.variableNames_eq.trans h.variableNames_eq
  find?_eq hx hxp := (h'.find?_eq (Nat.le_trans hx h.lastId_le) hxp).trans (h.find?_eq hx hxp)
  owner {b} hb := by
    obtain ⟨s, hs, hkeep⟩ := h.owner hb
    obtain ⟨s', hs', hkeep'⟩ := h'.owner hs
    refine ⟨s', hs', fun slot hslot => ?_⟩
    rw [List.mem_append, not_or] at hslot
    rw [hkeep' slot hslot.2]
    exact hkeep slot hslot.1
  above {x} hx hcontains := by
    obtain ⟨b, hb⟩ := contains_iff_find?.1 hp
    obtain ⟨s, hs, -⟩ := h.owner hb
    by_cases hold : x ≤ w₁.lastId
    · have hxp : x ≠ p := Nat.ne_of_gt (Nat.lt_of_le_of_lt (hw.le_lastId hp) hx)
      rw [contains_iff_find?, h'.find?_eq hold hxp, ← contains_iff_find?] at hcontains
      exact h'.above_mono h.consistent (contains_of_find? hs) (h.above hx hcontains)
    · exact h'.above (Nat.not_le.1 hold) hcontains

end Grows

/-! ### Building -/

/-- A new block without links is a tree. -/
theorem builds_create {v : Vocabulary} {fields : Fields} {f : Form} (hw : w.Consistent)
    (hform : v.get form = .ok f) (hroom : w.Room 1)
    (h : w.create v form fields = .ok (id, w')) :
    w.Builds w' id form ∧ w.Spends w' 1 ∧
      w'.find? id = some (.ofTemplate id form f.template fields) := by
  have hw' := hw.create hroom h
  obtain ⟨f', hf', hid, rfl⟩ := create_eq_ok.1 h
  obtain rfl : f = f' := Except.ok.inj (hform.symm.trans hf')
  rw [succId_eq hroom] at hid
  have hfind (x : BlockId) := find?_addBlock w (.ofTemplate id form f.template fields) x
  have hlt : w.lastId < id := hid ▸ Nat.lt_succ_self _
  have hself := (hfind id).trans (if_pos rfl)
  refine ⟨⟨⟨hw', Nat.le_of_lt hlt, rfl, fun {x} hx => ?_⟩, hlt, ⟨_, hself, rfl, rfl, rfl⟩, ?_⟩, hid,
    hself⟩
  · exact (hfind x).trans (if_neg (Nat.ne_of_lt (Nat.lt_of_le_of_lt hx hlt)))
  · intro x hx hcontains
    rcases (contains_addBlock ..).1 hcontains with hxid | hcontains
    · exact .inl hxid
    · exact absurd (hw.le_lastId hcontains) (Nat.not_le.2 hx)

namespace Builds

/-- A change of the flags and fields of a new block leaves it a new block. -/
theorem modify {f : Block → Block} (hf : Inert f)
    (hsame : ∀ b, (f b).form = b.form ∧ (f b).next = b.next) (h : w.Builds w' id form) :
    w.Builds (w'.modify id f) id form where
  consistent := h.consistent.modify hf
  lastId_le := h.lastId_le
  variableNames_eq := h.variableNames_eq
  find?_eq {x} hx := by
    rw [find?_modify, if_neg (Nat.ne_of_lt (Nat.lt_of_le_of_lt hx h.lt_id))]
    exact h.find?_eq hx
  lt_id := h.lt_id
  root := by
    obtain ⟨b, hb, hform, hroot, hnext⟩ := h.root
    refine ⟨f b, ?_, (hsame b).1.trans hform, (hf.parent_eq b).trans hroot, (hsame b).2.trans hnext⟩
    rw [find?_modify, if_pos rfl, hb, Option.map_some]
  eq_or_above {x} hx hcontains := by
    rw [contains_modify] at hcontains
    refine (h.eq_or_above hx hcontains).imp_right fun ha => ha.mono fun y z hyz => ?_
    rwa [hf.parent?_eq]

theorem contains (h : w.Builds w' id form) : w'.contains id = true := by
  obtain ⟨b, hb, -⟩ := h.root
  exact contains_of_find? hb

theorem parent?_eq_none (h : w.Builds w' id form) : w'.parent? id = none := by
  obtain ⟨b, hb, -, hroot, -⟩ := h.root
  exact (parent?_of_find? hb).trans hroot

/-- A new block with new blocks hung beneath it is a tree of new blocks. -/
theorem grows {slots : List String} (h : w.Builds w₁ id form) (h' : w₁.Grows w' id slots) :
    w.Builds w' id form where
  consistent := h'.consistent
  lastId_le := Nat.le_trans h.lastId_le h'.lastId_le
  variableNames_eq := h'.variableNames_eq.trans h.variableNames_eq
  find?_eq hx := by
    have hne := Nat.ne_of_lt (Nat.lt_of_le_of_lt hx h.lt_id)
    exact (h'.find?_eq (Nat.le_trans hx h.lastId_le) hne).trans (h.find?_eq hx)
  lt_id := h.lt_id
  root := by
    obtain ⟨b, hb, hlinks⟩ := h.root
    obtain ⟨s, hs, -⟩ := h'.owner hb
    exact ⟨_, hs, hlinks⟩
  eq_or_above {x} hx hcontains := by
    by_cases hold : x ≤ w₁.lastId
    · by_cases hxid : x = id
      · exact .inl hxid
      · rw [contains_iff_find?, h'.find?_eq hold hxid, ← contains_iff_find?] at hcontains
        have habove := (h.eq_or_above hx hcontains).resolve_left hxid
        exact .inr (h'.above_mono h.consistent h.contains habove)
    · exact .inr (h'.above (Nat.not_le.1 hold) hcontains)

/-- Removing a new tree removes just that. -/
theorem remove (hw : w.Consistent) (h : w.Builds w' id form) :
    ∃ n w₁, w'.remove id = .ok (n, w₁) ∧ w.Leaves w₁ ∧ w'.Spends w₁ 0 := by
  obtain ⟨b, hb, -, hroot, -⟩ := h.root
  have hcontains := h.contains
  refine ⟨_, _, remove_of_disconnect (disconnect_of_root hb hroot), ?_, rfl⟩
  refine ⟨⟨h.consistent.forget_descendants h.parent?_eq_none, h.lastId_le, h.variableNames_eq,
    fun {x} hx => ?_⟩, fun {x} hx => ?_⟩
  · rw [find?_forget, if_neg, h.find?_eq hx]
    intro hmem
    obtain ⟨-, rfl | habove⟩ := h.consistent.mem_descendants_iff.1 hmem
    · exact absurd hx (Nat.not_le.2 h.lt_id)
    · exact absurd (h.toExtends.le_lastId_of_above hw habove hx) (Nat.not_le.2 h.lt_id)
  · rw [find?_forget]
    split
    · rfl
    · next hmem =>
      refine find?_eq_none_iff.2 fun hx' => hmem ?_
      exact h.consistent.mem_descendants_iff.2 ⟨hcontains, h.eq_or_above hx hx'⟩

theorem discard (hw : w.Consistent) (h : w.Builds w' id form) :
    w.Leaves (w'.discard id) ∧ w'.Spends (w'.discard id) 0 := by
  obtain ⟨n, w₁, hremove, hleaves⟩ := h.remove hw
  rw [Workspace.discard, hremove]
  exact hleaves

/-- A free slot that takes the output of a new tree takes the tree. -/
theorem admitValue {child : Block} {check output : Option Capability} (hw : w.Consistent)
    (h : w.Builds w' c form) (hp : w.find? p = some b)
    (hslot : b.slots.find? slot = some (.value check none)) (hc : w'.find? c = some child)
    (hshape : child.shape = .expression output)
    (hcompatible : Capability.compatible check output = true) :
    w'.admitValue p slot c = .ok none := by
  have hle : p ≤ w.lastId := hw.le_lastId (contains_of_find? hp)
  have hp' : w'.find? p = some b := (h.find?_eq hle).trans hp
  have hroot : child.parent = none := (parent?_of_find? hc).symm.trans h.parent?_eq_none
  have hadmit : w'.admitChild p c = .ok () := by
    refine (h.consistent.admitChild_iff hc).2 ⟨hroot, ?_, fun habove => ?_⟩
    · exact Nat.ne_of_gt (Nat.lt_of_le_of_lt hle h.lt_id)
    · exact absurd (h.toExtends.le_lastId_of_above hw habove hle) (Nat.not_le.2 h.lt_id)
  exact admitValue_of_admitChild hp' hslot hc hshape hcompatible hadmit

/-- A new tree is refused by a free slot, or hangs in it. -/
theorem connectValue (hw : w.Consistent) (h : w.Builds w' c form) (hp : w.find? p = some b)
    (hvacant : b.valueChild slot = none) :
    (∃ e, w'.connectValue p slot c = (.error e, w')) ∨
      (w'.connectValue p slot c = (.ok (), (w'.fill p slot c).own p c) ∧
        w.Grows ((w'.fill p slot c).own p c) p [slot]) := by
  have hle : p ≤ w.lastId := hw.le_lastId (contains_of_find? hp)
  have hp' : w'.find? p = some b := (h.find?_eq hle).trans hp
  cases hadmit : w'.admitValue p slot c with
  | error e => exact .inl ⟨e, connectValue_of_error hadmit⟩
  | ok r =>
    obtain ⟨b', child, check, output, hb', hslot, hc, -, -, hchild, -⟩ := admitValue_eq_ok.1 hadmit
    obtain rfl : b = b' := Option.some.inj (hp'.symm.trans hb')
    obtain rfl : r = none := by
      rw [Block.valueChild, hslot] at hvacant
      exact hvacant
    obtain ⟨hroot, hne, -⟩ := (h.consistent.admitChild_iff hc).1 hchild
    have hconnect := connectValue_of_vacant hadmit
    have hcons := h.consistent.connectValue p slot c
    rw [hconnect] at hcons
    have hfind {x : BlockId} := find?_relink (x := x) (q := some p)
      (f := fun b => { b with slots := b.slots.modify slot (Slot.hold (some c)) }) hp' hc hne
    have hparent {x : BlockId} := parent?_relink (x := x) (q := some p)
      (f := fun b => { b with slots := b.slots.modify slot (Slot.hold (some c)) }) hp' hc hne rfl
    refine .inr ⟨hconnect, hcons, h.lastId_le, h.variableNames_eq, ?_, ?_, ?_⟩
    · intro x hx hxp
      refine (hfind.trans ?_).trans (h.find?_eq hx)
      rw [if_neg (Nat.ne_of_lt (Nat.lt_of_le_of_lt hx h.lt_id)), if_neg hxp]
    · intro d hd
      obtain rfl : b = d := Option.some.inj (hp.symm.trans hd)
      refine ⟨_, hfind.trans ((if_neg hne.symm).trans (if_pos rfl)), fun s hs => ?_⟩
      rw [OrderedMap.find?_modify, if_neg fun hss => hs (List.mem_singleton.2 hss)]
    · intro x hx hcontains
      rw [own, fill, contains_modify, contains_modify] at hcontains
      have hcp : ((w'.fill p slot c).own p c).Above p c := .single (hparent.trans (if_pos rfl))
      rcases h.eq_or_above hx hcontains with rfl | habove
      · exact hcp
      · refine hcp.trans (habove.mono fun y z hyz => hparent.trans ?_)
        rw [if_neg, hyz]
        rintro rfl
        cases h.parent?_eq_none.symm.trans hyz

end Builds

end ScriptBlocks.Workspace
