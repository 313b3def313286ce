import ScriptBlocks.Proofs.Except
import ScriptBlocks.Proofs.OrderedMap
import ScriptBlocks.Proofs.Workspace.Attach

/-!
# Connections keep a workspace consistent

What each connection does once it is admitted, and that it keeps the invariant.

## Main statements

* `Workspace.Consistent.admitChild_iff` — the condition on attachments, read as a property of the links
* `Workspace.Consistent.connectStatement`, `Workspace.Consistent.append` — the connections
* `Workspace.Consistent.disconnect`, `Workspace.Consistent.remove` — taking apart and removing
-/

namespace ScriptBlocks

namespace Block

variable {b child : Block} {slot : String} {s : Slot} {c : BlockId}

theorem mem_children_of_slot (hslot : b.slots.find? slot = some s)
    (hs : s.occupant = some c) : c ∈ b.children :=
  List.mem_append_left _ (List.mem_filterMap.2 ⟨s, OrderedMap.mem_values_of_find? hslot, hs⟩)

/-- A block that is put into an empty slot which admits it is one more link. -/
theorem gains_fill (hslot : b.slots.find? slot = some s) (hempty : s.occupant = none)
    (hadmits : s.admits child.shape = true) (hfresh : c ∉ b.children) :
    b.Gains { b with slots := b.slots.modify slot (Slot.hold (some c)) } c child := by
  obtain ⟨before, after, hvalues, hmodify⟩ :=
    OrderedMap.exists_values_modify hslot (Slot.hold (some c))
  have hhold : (s.hold (some c)).occupant = some c := by
    cases s <;> rfl
  have hadmitsHold (shape : Shape) : (s.hold (some c)).admits shape = s.admits shape := by
    cases s <;> cases shape <;> rfl
  have hold {x : BlockId} (hx : x ≠ c) {t : Slot} (ht : t ∈ before ++ s.hold (some c) :: after)
      (ho : t.occupant = some x) : t ∈ b.slots.values := by
    rw [hvalues]
    rw [List.mem_append, List.mem_cons] at ht ⊢
    rcases ht with ht | rfl | ht
    · exact .inl ht
    · exact absurd (Option.some.inj (ho.symm.trans hhold)) hx
    · exact .inr (.inr ht)
  rw [children, List.mem_append, not_or] at hfresh
  refine ⟨rfl, rfl, rfl, ?_, ⟨fun t ht ho => ?_, fun hn => ?_⟩, fun hx h => ⟨fun t ht ho => ?_, h.2⟩⟩
  · rw [children, children, hmodify, hvalues, List.filterMap_append, List.filterMap_append,
      List.filterMap_cons_none hempty, List.filterMap_cons_some hhold, List.append_assoc,
      List.append_assoc, List.cons_append]
    exact List.perm_middle
  · change t ∈ (b.slots.modify slot (Slot.hold (some c))).values at ht
    rw [hmodify, List.mem_append, List.mem_cons] at ht
    -- Nothing but the slot that was filled holds the new block.
    have hother : t ∈ before ∨ t ∈ after → False := fun ht => by
      refine hfresh.1 (List.mem_filterMap.2 ⟨t, ?_, ho⟩)
      rw [hvalues, List.mem_append, List.mem_cons]
      exact ht.imp_right .inr
    rcases ht with ht | rfl | ht
    · exact (hother (.inl ht)).elim
    · rw [hadmitsHold, hadmits]
    · exact (hother (.inr ht)).elim
  · change b.next = some c at hn
    rw [hn, Option.toList_some] at hfresh
    exact absurd (List.mem_singleton_self c) hfresh.2
  · change t ∈ (b.slots.modify slot (Slot.hold (some c))).values at ht
    rw [hmodify] at ht
    exact h.1 t (hold hx ht ho) ho

/-- A block that follows one which nothing follows yet is one more link. -/
theorem gains_next (hempty : b.next = none) (hnext : b.shape.hasNext = true)
    (hprevious : child.shape.hasPrevious = true) (hfresh : c ∉ b.children) :
    b.Gains { b with next := some c } c child := by
  rw [children, hempty, Option.toList_none, List.append_nil] at hfresh
  refine ⟨rfl, rfl, rfl, ?_, ⟨fun t ht ho => ?_, fun _ => ⟨hnext, hprevious⟩⟩,
    fun hx h => ⟨h.1, fun hn => ?_⟩⟩
  · rw [children, children, hempty, Option.toList_none, List.append_nil, Option.toList_some]
    exact List.perm_append_singleton _ _
  · exact absurd (List.mem_filterMap.2 ⟨t, ht, ho⟩) hfresh
  · exact absurd (Option.some.inj hn).symm hx

end Block

namespace Workspace

variable {w w' : Workspace} {id p c x : BlockId} {b child : Block} {slot : String}

/-! ### Conditions -/

theorem admitChild_eq_ok {u : Unit} : w.admitChild p c = .ok u ↔
    ∃ child, w.find? c = some child ∧ child.parent = none ∧ c ≠ p ∧ c ∉ w.ancestors p := by
  simp only [admitChild, bind_eq_ok, get_eq_ok_iff, ite_throw_bind_eq_ok, ite_throw_eq_ok,
    pure_eq_ok, Bool.not_eq_true, Option.isSome_eq_false_iff, Option.isNone_iff_eq_none, not_or,
    and_true]

/-- A statement goes into an empty slot for statements if it can follow something. -/
theorem admitStatement_eq_ok {u : Unit} : w.admitStatement p slot c = .ok u ↔
    ∃ b child, w.find? p = some b ∧ b.slots.find? slot = some (.statement none) ∧
      w.find? c = some child ∧ child.shape.hasPrevious = true ∧ w.admitChild p c = .ok u := by
  constructor
  · intro h
    simp only [admitStatement, bind_eq_ok, get_eq_ok_iff] at h
    obtain ⟨b, hb, h⟩ := h
    split at h
    · next hslot =>
      simp only [bind_eq_ok, get_eq_ok_iff, ite_throw_bind_eq_ok] at h
      obtain ⟨child, hchild, hprevious, h⟩ := h
      exact ⟨b, child, hb, hslot, hchild, by simpa using hprevious, h⟩
    · exact (throw_bind_eq_ok.1 h).elim
    · exact (throw_bind_eq_ok.1 h).elim
    · exact (throw_bind_eq_ok.1 h).elim
  · rintro ⟨b, child, hb, hslot, hc, hprevious, hchild⟩
    rw [admitStatement, get_of_find? hb, get_of_find? hc]
    simp only [bind, Except.bind, hslot, hprevious, hchild]
    rfl

/-- What is in a slot is to be replaced just if it is a shadow. -/
theorem replaceableShadow_eq_ok {occupant r : Option BlockId} :
    w.replaceableShadow p slot occupant = .ok r ↔
      r = occupant ∧ ∀ x ∈ occupant, ∃ b, w.find? x = some b ∧ b.shadow = true := by
  cases occupant with
  | none =>
    constructor
    · exact fun h => ⟨(Except.ok.inj h).symm, nofun⟩
    · rintro ⟨rfl, -⟩
      rfl
  | some existing =>
    simp only [replaceableShadow, bind_eq_ok, get_eq_ok_iff, Option.mem_some_iff, forall_eq']
    constructor
    · rintro ⟨b, hb, h⟩
      split at h
      · next hshadow => exact ⟨(Except.ok.inj h).symm, b, hb, hshadow⟩
      · exact (throw_eq_ok.1 h).elim
    · rintro ⟨rfl, b, hb, hshadow⟩
      exact ⟨b, hb, if_pos hshadow⟩

/-- An expression goes into a slot for values that it is compatible with if the slot is empty or holds
a shadow. -/
theorem admitValue_eq_ok {r : Option BlockId} : w.admitValue p slot c = .ok r ↔
    ∃ b child check output, w.find? p = some b ∧ b.slots.find? slot = some (.value check r) ∧
      w.find? c = some child ∧ child.shape = .expression output ∧
        Capability.compatible check output = true ∧ w.admitChild p c = .ok () ∧
          ∀ x ∈ r, ∃ b, w.find? x = some b ∧ b.shadow = true := by
  constructor
  · intro h
    simp only [admitValue, bind_eq_ok, get_eq_ok_iff] at h
    obtain ⟨b, hb, h⟩ := h
    split at h
    · next check occupant hslot =>
      simp only [bind_eq_ok, get_eq_ok_iff, pure_eq_ok] at h
      obtain ⟨_, rfl, shadow, hshadow, child, hchild, h⟩ := h
      split at h
      · exact (throw_bind_eq_ok.1 h).elim
      · next output hshape =>
        simp only [bind_eq_ok, ite_throw_bind_eq_ok, pure_eq_ok] at h
        obtain ⟨hcompatible, _, hadmit, rfl⟩ := h
        obtain ⟨rfl, hshadow⟩ := replaceableShadow_eq_ok.1 hshadow
        exact ⟨b, child, check, output, hb, hslot, hchild, hshape, by simpa using hcompatible, hadmit,
          hshadow⟩
    · exact (throw_bind_eq_ok.1 h).elim
    · exact (throw_bind_eq_ok.1 h).elim
  · rintro ⟨b, child, check, output, hb, hslot, hc, hshape, hcompatible, hfree, hshadow⟩
    have hreplace : w.replaceableShadow p slot r = .ok r := replaceableShadow_eq_ok.2 ⟨rfl, hshadow⟩
    rw [admitValue, get_of_find? hb, get_of_find? hc]
    simp only [bind, Except.bind, hslot, pure, Except.pure, hreplace, hshape, hcompatible, hfree]
    rfl

/-- A free slot takes what it is compatible with, if that may be attached there at all. -/
theorem admitValue_of_admitChild {check output : Option Capability} (hb : w.find? p = some b)
    (hslot : b.slots.find? slot = some (.value check none)) (hc : w.find? c = some child)
    (hshape : child.shape = .expression output)
    (hcompatible : Capability.compatible check output = true)
    (hfree : w.admitChild p c = .ok ()) : w.admitValue p slot c = .ok none :=
  admitValue_eq_ok.2 ⟨b, child, check, output, hb, hslot, hc, hshape, hcompatible, hfree, nofun⟩

/-- A statement may follow the last one of a chain if the connectors of the two allow it. -/
theorem admitNext_eq_ok {head last : BlockId} : w.admitNext head id = .ok last ↔
    ∃ b child, w.tail head = .ok last ∧ w.find? last = some b ∧ b.shape.hasNext = true ∧
      w.find? id = some child ∧ child.shape.hasPrevious = true ∧ w.admitChild last id = .ok () := by
  simp only [admitNext, bind_eq_ok, get_eq_ok_iff, ite_throw_bind_eq_ok, pure_eq_ok,
    Bool.not_eq_true', Bool.not_eq_false]
  constructor
  · rintro ⟨last, htail, b, hb, hnext, child, hchild, hprevious, _, hadmit, rfl⟩
    exact ⟨b, child, htail, hb, hnext, hchild, hprevious, hadmit⟩
  · rintro ⟨b, child, htail, hb, hnext, hchild, hprevious, hadmit⟩
    exact ⟨last, htail, b, hb, hnext, child, hchild, hprevious, (), hadmit, rfl⟩

/-! ### What the operations come to -/

theorem connectStatement_eq_ok : w.connectStatement p slot c = .ok w' ↔
    w.admitStatement p slot c = .ok () ∧ w' = (w.fill p slot c).own p c := by
  simp only [connectStatement, bind_eq_ok, pure_eq_ok, eq_comm (a := w')]
  constructor
  · rintro ⟨_, h⟩
    exact h
  · intro h
    exact ⟨(), h⟩

theorem disconnect_of_root (hc : w.find? c = some child) (hroot : child.parent = none) :
    w.disconnect c = .ok w := by
  rw [Workspace.disconnect, get_of_find? hc]
  simp only [bind, Except.bind, hroot]
  rfl

/-- What is removed is what the block owns once it is on its own. -/
theorem remove_of_disconnect (h : w.disconnect c = .ok w') :
    w.remove c = .ok ((w'.descendants c).length, w'.forget (w'.descendants c)) := by
  rw [Workspace.remove, h]
  rfl

theorem plug_eq (hb : w.find? p = some b) (hc : w.find? c = some child) :
    w.plug p slot c = (.ok (), (w.fill p slot c).own p c) := by
  rw [plug, if_pos (contains_of_find? hb)]
  simp only [fill, contains_modify, contains_of_find? hc, if_true]

/-- A refused connection changes nothing. -/
theorem connectValue_of_error {e : Error} (h : w.admitValue p slot c = .error e) :
    w.connectValue p slot c = (.error e, w) := by
  rw [connectValue, h]

theorem connectValue_of_vacant (h : w.admitValue p slot c = .ok none) :
    w.connectValue p slot c = (.ok (), (w.fill p slot c).own p c) := by
  obtain ⟨b, child, check, output, hb, -, hc, -⟩ := admitValue_eq_ok.1 h
  rw [connectValue, h]
  exact plug_eq hb hc

namespace Consistent

variable (hw : w.Consistent)

include hw

/-- The condition on attachments, read as a property of the links: a block without an owner may go
anywhere but beneath itself. -/
theorem admitChild_iff (hc : w.find? c = some child) {u : Unit} :
    w.admitChild p c = .ok u ↔ child.parent = none ∧ c ≠ p ∧ ¬ w.Above c p := by
  rw [admitChild_eq_ok, ← hw.mem_ancestors_iff]
  constructor
  · rintro ⟨child', hc', h⟩
    rwa [Option.some.inj (hc.symm.trans hc')]
  · exact fun h => ⟨child, hc, h⟩

theorem not_mem_children_of_root (hb : w.find? p = some b) (hc : w.find? c = some child)
    (hroot : child.parent = none) : c ∉ b.children := by
  intro hmem
  have hparent := hw.parent?_of_mem_children hb hmem
  rw [parent?_of_find? hc, hroot] at hparent
  exact nomatch hparent

/-! ### Connections -/

/-- Putting a block into an empty slot that takes it. -/
theorem fill_own {s : Slot} (hb : w.find? p = some b) (hslot : b.slots.find? slot = some s)
    (hempty : s.occupant = none) (hc : w.find? c = some child)
    (hadmits : s.admits child.shape = true) (hroot : child.parent = none) (hne : c ≠ p)
    (hacyclic : ¬ w.Above c p) : ((w.fill p slot c).own p c).Consistent :=
  hw.attach hb hc hne hroot hacyclic
    (Block.gains_fill hslot hempty hadmits (hw.not_mem_children_of_root hb hc hroot))

theorem connectStatement (h : w.connectStatement p slot c = .ok w') : w'.Consistent := by
  obtain ⟨hadmitted, rfl⟩ := connectStatement_eq_ok.1 h
  obtain ⟨b, child, hb, hslot, hc, hprevious, hchild⟩ := admitStatement_eq_ok.1 hadmitted
  obtain ⟨hroot, hne, hacyclic⟩ := (hw.admitChild_iff hc).1 hchild
  exact hw.fill_own hb hslot rfl hc hprevious hroot hne hacyclic

/-- What it takes to link a statement after a chain, and what that comes to. -/
theorem append?_eq_ok {head : BlockId} (h : w.append? head id = .ok w') :
    ∃ last b child, w.find? last = some b ∧ (last = head ∨ w.Above head last) ∧
      b.next = none ∧ b.shape.hasNext = true ∧ w.find? id = some child ∧ child.parent = none ∧
        child.shape.hasPrevious = true ∧ id ≠ last ∧ ¬ w.Above id last ∧
          w' = (w.modify last fun b => { b with next := some id }).own last id := by
  simp only [Workspace.append?, bind_eq_ok, pure_eq_ok] at h
  obtain ⟨last, hadmit, rfl⟩ := h
  obtain ⟨b, child, htail, hb, hnext, hc, hprevious, hchild⟩ := admitNext_eq_ok.1 hadmit
  obtain ⟨hroot, hne, hacyclic⟩ := (hw.admitChild_iff hc).1 hchild
  obtain ⟨hb₀, hhead⟩ : ∃ b, w.find? head = some b := by
    simp only [tail, bind_eq_ok, get_eq_ok_iff] at htail
    obtain ⟨b, hb, -⟩ := htail
    exact ⟨b, hb⟩
  obtain ⟨end', htail', hfind, hbelow, hend⟩ := hw.tail_eq (contains_of_find? hhead)
  obtain rfl : end'.id = last := Except.ok.inj (htail'.symm.trans htail)
  obtain rfl : end' = b := Option.some.inj (hfind.symm.trans hb)
  exact ⟨_, end', child, hb, hbelow, hend, hnext, hc, hroot, hprevious, hne, hacyclic, rfl⟩

theorem append? {head : BlockId} (h : w.append? head id = .ok w') : w'.Consistent := by
  obtain ⟨last, b, child, hb, -, hend, hnext, hc, hroot, hprevious, hne, hacyclic, rfl⟩ :=
    hw.append?_eq_ok h
  exact hw.attach hb hc hne hroot hacyclic
    (Block.gains_next hend hnext hprevious (hw.not_mem_children_of_root hb hc hroot))

/-- An attempt to append leaves the workspace as it is or makes the link. -/
theorem append (head id : BlockId) : (w.append head id).2.Consistent := by
  rw [Workspace.append]
  split
  · next h => exact hw.append? h
  · exact hw

/-! ### Taking apart -/

theorem disconnect_of_parent (hc : w.find? c = some child) (howner : child.parent = some p) :
    ∃ b, w.find? p = some b ∧ c ∈ b.children ∧
      w.disconnect c = .ok ((w.modify p fun b => b.release c).modify c
        fun b => { b with parent := none }) := by
  obtain ⟨b, hb, hmem⟩ := hw.mem_children_of_parent hc howner
  refine ⟨b, hb, hmem, ?_⟩
  rw [Workspace.disconnect, get_of_find? hc]
  simp only [bind, Except.bind, howner, edit, contains_of_find? hb]
  rfl

theorem release (hb : w.find? p = some b) (hc : w.find? c = some child)
    (howner : child.parent = some p) :
    ((w.modify p fun b => b.release c).modify c fun b => { b with parent := none }).Consistent := by
  have hne : c ≠ p := hw.ne_of_parent? ((parent?_of_find? hc).trans howner)
  exact hw.detach hb hc hne howner (Block.drops_release (hw.nodup_children_of_find? hb))

theorem disconnect (h : w.disconnect c = .ok w') : w'.Consistent ∧ w'.parent? c = none := by
  cases hc : w.find? c with
  | none =>
    rw [Workspace.disconnect, get_of_find?_none hc] at h
    exact nomatch h
  | some child =>
    cases howner : child.parent with
    | none =>
      rw [disconnect_of_root hc howner] at h
      rw [← Except.ok.inj h]
      exact ⟨hw, (parent?_of_find? hc).trans howner⟩
    | some p =>
      obtain ⟨b, hb, -, heq⟩ := hw.disconnect_of_parent hc howner
      rw [heq] at h
      rw [← Except.ok.inj h]
      have hne : c ≠ p := hw.ne_of_parent? ((parent?_of_find? hc).trans howner)
      refine ⟨hw.release hb hc howner, ?_⟩
      rw [parent?_relink hb hc hne (Block.drops_release (hw.nodup_children_of_find? hb)).parent_eq,
        if_pos rfl]

/-- Forgetting everything a root owns leaves no link to nowhere. -/
theorem forget_descendants (hroot : w.parent? c = none) :
    (w.forget (w.descendants c)).Consistent := by
  refine hw.forget fun p x hpx => ⟨fun hx => ?_, fun hp => hw.mem_descendants_of_parent? hp hpx⟩
  obtain ⟨hcontains, rfl | habove⟩ := hw.mem_descendants_iff.1 hx
  · exact nomatch hroot.symm.trans hpx
  · rcases habove.eq_or_above hpx with rfl | habove
    · exact hw.mem_descendants_iff.2 ⟨hcontains, .inl rfl⟩
    · exact hw.mem_descendants_iff.2 ⟨hcontains, .inr habove⟩

theorem remove {n : Nat} (h : w.remove c = .ok (n, w')) : w'.Consistent := by
  simp only [Workspace.remove, bind_eq_ok, pure_eq_ok] at h
  obtain ⟨w₁, hdisconnect, heq⟩ := h
  obtain ⟨hw₁, hroot⟩ := hw.disconnect hdisconnect
  rw [← (Prod.mk.inj heq).2]
  exact hw₁.forget_descendants hroot

end Consistent

end Workspace

end ScriptBlocks
