import ScriptBlocks.Proofs.Workspace.Appending

/-!
# Detaching and attaching again

To detach a block clears the one place at which it stands, and to attach it there writes it back. So
one undoes the other, whether the place is a slot for a value, a slot for statements or the end of a
statement. Attaching checks the conditions anew: they hold because what is linked in a workspace
fits, and because a detached block is above nothing that it was not above before.

## Main definitions

* `Workspace.AttachesAt` — one of the three operations that link a block from a place

## Main statements

* `Workspace.Consistent.attachesAt_of_disconnect` — what is detached may be attached again
* `Workspace.Consistent.disconnect_of_attachesAt` — what is attached may be detached
* `Workspace.attach_inverse_disconnect` — both restore the workspace, whatever a host has made
-/

namespace ScriptBlocks.Workspace

variable {w w' : Workspace} {p c : BlockId} {b child : Block} {place : Place} {slot : String}

/-- An operation links the block `c` from a place of `p`, or from the end of the chain that goes on
from `p`, and leaves the workspace `w'`. -/
inductive AttachesAt (w : Workspace) (p c : BlockId) (w' : Workspace) : Place → Prop
  | value {slot : String} (h : w.connectValue p slot c = (.ok (), w')) :
      w.AttachesAt p c w' (.slot slot)
  | statement {slot : String} (h : w.connectStatement p slot c = .ok w') :
      w.AttachesAt p c w' (.slot slot)
  | next (h : w.append p c = (true, w')) : w.AttachesAt p c w' .next

namespace Consistent

variable (hw : w.Consistent)
include hw

/-! ### Attaching what was detached -/

/-- A block that was detached may go beneath its owner again. -/
theorem admitChild_setLink (h : w.occupant? p place = some c) :
    (w.setLink p place c none none).admitChild p c = .ok () := by
  obtain ⟨b, child, hb, -, hc, howner, hne⟩ := hw.exists_ends h
  have hw₁ := (hw.disconnect (hw.disconnect_eq h)).1
  refine (hw₁.admitChild_iff (find?_setLink_child hb hc hne)).2 ⟨rfl, hne, fun habove => ?_⟩
  refine hw.acyclic (.tail (habove.mono fun x y hxy => ?_) ((parent?_of_find? hc).trans howner))
  rw [parent?_setLink hb hc hne] at hxy
  split at hxy
  · exact nomatch hxy
  · exact hxy

/-- A block that is linked from a place can be attached there once it is detached, and all is as
before. -/
theorem attachesAt_of_disconnect (h : w.occupant? p place = some c) :
    ∃ w₁, w.disconnect c = .ok w₁ ∧ w₁.AttachesAt p c w place := by
  obtain ⟨b, child, hb, hplace, hc, howner, hne⟩ := hw.exists_ends h
  have hw₁ := (hw.disconnect (hw.disconnect_eq h)).1
  have hfree := hw.admitChild_setLink h
  have hback : (w.setLink p place c none none).setLink p place c (some c) (some p) = w := by
    rw [setLink_setLink, ← hplace, ← howner, setLink_self hb hc]
  have hb₁ : (w.setLink p place c none none).find? p = some (b.hold none place) :=
    find?_setLink_owner hb hc hne
  have hc₁ : (w.setLink p place c none none).find? c = some { child with parent := none } :=
    find?_setLink_child hb hc hne
  refine ⟨_, hw.disconnect_eq h, ?_⟩
  cases place with
  | next =>
    obtain ⟨hnext, hprevious⟩ := (hw.admits hb hc).2 hplace
    -- with nothing after it the owner is the last of its chain
    have htail : (w.setLink p .next c none none).tail p = .ok p := hw₁.tail_of_next_eq_none hb₁ rfl
    refine .next (append_eq_true_iff.2 ⟨p, ?_, hback.symm⟩)
    exact admitNext_eq_ok.2 ⟨_, _, htail, hb₁, hnext, hc₁, hprevious, hfree⟩
  | slot name =>
    obtain ⟨s, hs, hoccupant⟩ := Option.bind_eq_some_iff.1 hplace
    have hadmits := (hw.admits hb hc).1 s (OrderedMap.mem_values_of_find? hs) hoccupant
    have hs₁ := Block.find?_slots_hold (x := none) hs
    cases s with
    | value check o =>
      cases hshape : child.shape with
      | statement =>
        rw [hshape] at hadmits
        exact nomatch hadmits
      | expression output =>
        rw [hshape] at hadmits
        refine .value ?_
        rw [connectValue_of_vacant (admitValue_of_admitChild hb₁ hs₁ hc₁ hshape hadmits hfree),
          fill_own_eq_setLink, hback]
    | statement o =>
      refine .statement (connectStatement_eq_ok.2 ⟨?_, hback.symm⟩)
      exact admitStatement_eq_ok.2 ⟨_, _, hb₁, hs₁, hc₁, hadmits, hfree⟩

/-! ### Detaching what was attached -/

omit hw in
/-- A link that is made at a vacant place is cleared by detaching. -/
theorem disconnect_setLink (hw' : (w.setLink p place c (some c) (some p)).Consistent)
    (hb : w.find? p = some b) (hhas : b.Has place) (hvacant : b.occupant place = none)
    (hc : w.find? c = some child) (hroot : child.parent = none) (hne : c ≠ p) :
    (w.setLink p place c (some c) (some p)).disconnect c = .ok w := by
  have hplace : (w.setLink p place c (some c) (some p)).occupant? p place = some c := by
    rw [occupant?_of_find? (find?_setLink_owner hb hc hne), Block.occupant_hold hhas, if_pos rfl]
  have hback : w.setLink p place c (b.occupant place) child.parent = w := setLink_self hb hc
  rw [hvacant, hroot] at hback
  rw [hw'.disconnect_eq hplace, setLink_setLink, hback]

/-- A block that was attached without another giving way can be detached, and all is as before. -/
theorem disconnect_of_attachesAt (h : w.AttachesAt p c w' place)
    (hvacant : ∀ slot, place = .slot slot → w.occupant? p place = none) :
    w'.disconnect c = .ok w := by
  cases h with
  | @value slot h =>
    have hw' := hw.connectValue p slot c
    obtain ⟨r, hadmitted⟩ := hw.connectValue_eq_ok_iff.1 (congrArg Prod.fst h)
    obtain ⟨b, child, _, _, hb, hslot, hc, -, -, hchild, -⟩ := admitValue_eq_ok.1 hadmitted
    obtain ⟨hroot, hne, -⟩ := (hw.admitChild_iff hc).1 hchild
    have hempty : b.occupant (.slot slot) = none :=
      (occupant?_of_find? hb).symm.trans (hvacant slot rfl)
    obtain rfl : r = none := (Block.occupant_slot hslot).symm.trans hempty
    rw [connectValue_of_vacant hadmitted, fill_own_eq_setLink] at h hw'
    obtain rfl := congrArg Prod.snd h
    exact disconnect_setLink hw' hb (Block.has_slot hslot) hempty hc hroot hne
  | @statement slot h =>
    have hw' := hw.connectStatement h
    obtain ⟨hadmitted, rfl⟩ := connectStatement_eq_ok.1 h
    rw [fill_own_eq_setLink] at hw' ⊢
    obtain ⟨b, child, hb, hslot, hc, -, hchild⟩ := admitStatement_eq_ok.1 hadmitted
    obtain ⟨hroot, hne, -⟩ := (hw.admitChild_iff hc).1 hchild
    exact disconnect_setLink hw' hb (Block.has_slot hslot) (Block.occupant_slot hslot) hc hroot hne
  | next h =>
    have hw' := hw.append p c
    rw [h] at hw'
    obtain ⟨last, hadmitted, rfl⟩ := append_eq_true_iff.1 h
    obtain ⟨b, child, hlast, hb, -, hc, -, hroot, hne, -⟩ := hw.admitNext_eq_ok_iff.1 hadmitted
    exact disconnect_setLink hw' hb trivial (hw.next_of_getLast? hlast hb) hc hroot hne

end Consistent

/-- Whatever blocks a host has made, detaching and attaching undo each other: a block that has an
owner is linked from one place, at which it can be attached again after it was detached, and a block
that was attached where nothing had to give way can be detached. Either way the workspace is what it
was. -/
theorem attach_inverse_disconnect (commands : List Command)
    (hroom : (∅ : Workspace).creations commands < wordLimit) :
    let w := (∅ : Workspace).run commands
    (∀ p c, w.parent? c = some p → ∃ place w₁,
      (∀ q place', w.occupant? q place' = some c ↔ q = p ∧ place' = place) ∧
        w.disconnect c = .ok w₁ ∧ w₁.AttachesAt p c w place) ∧
    ∀ p c place w', w.AttachesAt p c w' place →
      (∀ slot, place = .slot slot → w.occupant? p place = none) → w'.disconnect c = .ok w := by
  intro w
  obtain ⟨hw, -⟩ := consistent_run consistent_empty commands (room_empty hroom)
  constructor
  · intro p c hparent
    obtain ⟨place, hplace⟩ := hw.exists_place hparent
    obtain ⟨w₁, hdisconnect, hattach⟩ := hw.attachesAt_of_disconnect ((hplace p place).2 ⟨rfl, rfl⟩)
    exact ⟨place, w₁, hplace, hdisconnect, hattach⟩
  · exact fun p c place w' => hw.disconnect_of_attachesAt

/-- In a loop there is a statement with a number, and one more after it. -/
theorem attach_inverse_disconnect_in_loop :
    let commands : List Command :=
      [.create Dialect.vocabulary "forever" ∅, .create Dialect.vocabulary "show_number" ∅,
        .create Dialect.vocabulary "math_number" ∅, .connectValue 2 "NUM" 3,
        .connectStatement 1 "DO" 2, .create Dialect.vocabulary "pause" ∅, .append 2 4]
    let w := (∅ : Workspace).run commands
    (∅ : Workspace).creations commands < wordLimit ∧
      (∃ w₁, w.disconnect 2 = .ok w₁ ∧ w₁.AttachesAt 1 2 w (.slot "DO")) ∧
      (∃ w₁, w.disconnect 3 = .ok w₁ ∧ w₁.AttachesAt 2 3 w (.slot "NUM")) ∧
      ∃ w₁, w.disconnect 4 = .ok w₁ ∧ w₁.AttachesAt 2 4 w .next := by
  intro commands w
  have h : (∅ : Workspace).creations commands < wordLimit ∧
      (w.parent? 2 = some 1 ∧ w.occupant? 1 (.slot "DO") = some 2) ∧
      (w.parent? 3 = some 2 ∧ w.occupant? 2 (.slot "NUM") = some 3) ∧
      w.parent? 4 = some 2 ∧ w.occupant? 2 .next = some 4 := by decide +kernel
  obtain ⟨hroom, hstatement, hvalue, hnext⟩ := h
  have hagain {p c : BlockId} {place : Place}
      (hlink : w.parent? c = some p ∧ w.occupant? p place = some c) :
      ∃ w₁, w.disconnect c = .ok w₁ ∧ w₁.AttachesAt p c w place := by
    obtain ⟨place', w₁, hplace, h⟩ := (attach_inverse_disconnect commands hroom).1 p c hlink.1
    obtain ⟨-, rfl⟩ := (hplace p place).1 hlink.2
    exact ⟨w₁, h⟩
  exact ⟨hroom, hagain hstatement, hagain hvalue, hagain hnext⟩

end ScriptBlocks.Workspace
