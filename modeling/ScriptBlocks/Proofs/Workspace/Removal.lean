import ScriptBlocks.Proofs.Workspace.Place

/-!
# Removal

A block is removed with all that it owns, and so is a shadow that gives way to the expression that
is plugged into its slot. The walk down from the block lists just what is lost, each block once:
nothing else is owned by what is removed, and no link to it is left.

## Main statements

* `Workspace.Consistent.disconnect_spec` — what detaching touches
* `Workspace.Consistent.remove_spec` — what a removal takes, and the one link that it clears
* `Workspace.Consistent.connectValue_spec` — what an expression takes the place of
-/

namespace ScriptBlocks.Workspace

variable {w w' : Workspace} {id p c x : BlockId} {b child : Block} {place : Place} {slot : String}

namespace Consistent

variable (hw : w.Consistent)
include hw

/-- A block that is detached keeps all that it owns. -/
theorem descendants_setLink (h : w.occupant? p place = some c) :
    (w.setLink p place c none none).descendants c = w.descendants c := by
  obtain ⟨b, child, hb, -, hc, howner, hne⟩ := hw.exists_ends h
  have hw₁ := (hw.disconnect (hw.disconnect_eq h)).1
  refine hw.descendants_congr_of_children hw₁ hc (find?_setLink_child hb hc hne) rfl fun x hx => ?_
  -- what is below the block is neither the block nor its owner
  have hxc : x ≠ c := fun heq => hw.acyclic (heq ▸ hx)
  have hxp : x ≠ p := fun heq => hw.acyclic ((heq ▸ hx).head ((parent?_of_find? hc).trans howner))
  rw [find?_setLink hb hc hne, if_neg hxc, if_neg hxp]

/-- To detach a block touches only the block and its owner, and no other loses its owner. -/
theorem disconnect_spec (hb : w.find? id = some b) :
    ∃ w₁, w.disconnect id = .ok w₁ ∧ w₁.descendants id = w.descendants id ∧
      w.Loses w₁ (fun _ => False) (id :: (w.parent? id).toList) ∧
      ∀ x, x ≠ id → w₁.parent? x = w.parent? x := by
  cases howner : w.parent? id with
  | none =>
    have hroot := (parent?_of_find? hb).symm.trans howner
    exact ⟨w, disconnect_of_root hb hroot, rfl, hw.loses_refl.congr (fun _ => .rfl) nofun,
      fun _ _ => rfl⟩
  | some p =>
    obtain ⟨place, hplace⟩ := hw.exists_occupant?_iff.2 howner
    obtain ⟨owner, child, hp, -, hc, -, hne⟩ := hw.exists_ends hplace
    refine ⟨_, hw.disconnect_eq hplace, hw.descendants_setLink hplace,
      hw.loses_setLink.congr (fun _ => .rfl) fun x hx _ => ?_, fun x hx => ?_⟩
    · exact (List.Perm.swap id p []).mem_iff.1 hx
    · rw [parent?_setLink hp hc hne, if_neg hx]

/-- A removal takes the block and what it owns, clears the place at which the block stood, and lets
all else be. -/
theorem remove_spec (hb : w.find? id = some b) :
    ∃ w', w.remove id = .ok ((w.descendants id).length, w') ∧ w'.Consistent ∧
      w.Loses w' (· ∈ w.descendants id) (w.parent? id).toList ∧
      (∀ x, x ∉ w.descendants id → w'.parent? x = w.parent? x) ∧
      ∀ p place owner, w.find? p = some owner → owner.occupant place = some id →
        w'.find? p = some (owner.hold none place) := by
  have hself : id ∈ w.descendants id := hw.mem_descendants_iff.2 ⟨contains_of_find? hb, .inl rfl⟩
  obtain ⟨w₁, hdisconnect, hwalk, hlost₁, hparent₁⟩ := hw.disconnect_spec hb
  obtain ⟨hw₁, hroot⟩ := hw.disconnect hdisconnect
  have hremove := remove_of_disconnect hdisconnect
  have hw' := hw₁.forget_descendants hroot
  rw [hwalk] at hremove hw'
  have hforget := hw₁.loses_forget (w.descendants id)
  have hkept {x : BlockId} (hx : x ∉ w.descendants id) :
      (w₁.forget (w.descendants id)).find? x = w₁.find? x :=
    hforget.find?_eq hx List.not_mem_nil
  refine ⟨_, hremove, hw', (hlost₁.trans hforget).congr (fun x => ?_) fun x hx hgone => ?_,
    fun x hx => ?_, fun p place owner hp hplace => ?_⟩
  · rw [false_or]
  · rw [List.append_nil] at hx
    rcases List.mem_cons.1 hx with rfl | hx
    · exact absurd (.inr hself) hgone
    · exact hx
  · have hne : x ≠ id := fun heq => hx (heq ▸ hself)
    exact (parent?_congr (hkept hx)).trans (hparent₁ x hne)
  · have hplace := (occupant?_of_find? hp).trans hplace
    obtain rfl := Except.ok.inj (hdisconnect.symm.trans (hw.disconnect_eq hplace))
    have howner := hw.exists_occupant?_iff.1 ⟨place, hplace⟩
    have hne := hw.ne_of_parent? howner
    have hpid : p ∉ w.descendants id := by
      intro hmem
      rcases (hw.mem_descendants_iff.1 hmem).2 with heq | habove
      · exact hne heq.symm
      · exact hw.acyclic (habove.head howner)
    rw [hkept hpid, find?_setLink_owner hp hb hne]

/-! ### Giving way -/

/-- Before an expression that is admitted to a slot is linked, the shadow there is removed, if there
is one. That takes neither the expression nor the block with the slot, and leaves the slot empty. -/
theorem makes_room {r : Option BlockId} (h : w.admitValue p slot c = .ok r)
    (hb : w.find? p = some b) (hc : w.find? c = some child) :
    ∃ w₁, w.connectValue p slot c = (.ok (), (w₁.fill p slot c).own p c) ∧ w₁.Consistent ∧
      w.Loses w₁ (fun x => ∃ shadow ∈ r, x ∈ w.descendants shadow) [p] ∧
      (∀ x y, w₁.parent? y = some x → w.parent? y = some x) ∧
      w₁.find? p = some (b.hold none (.slot slot)) ∧ w₁.find? c = some child := by
  obtain ⟨b', child', check, output, hb', hslot, hc', -, -, hchild, -⟩ := admitValue_eq_ok.1 h
  obtain rfl : b = b' := Option.some.inj (hb.symm.trans hb')
  obtain rfl : child = child' := Option.some.inj (hc.symm.trans hc')
  obtain ⟨hroot, hne, -⟩ := (hw.admitChild_iff hc).1 hchild
  have hplace : b.occupant (.slot slot) = r := Block.occupant_slot hslot
  cases r with
  | none =>
    have hempty := b.hold_occupant (.slot slot)
    rw [hplace] at hempty
    refine ⟨w, connectValue_of_vacant h, hw, hw.loses_refl.congr (fun x => ?_) nofun,
      fun _ _ hxy => hxy, hempty.symm ▸ hb, hc⟩
    exact iff_of_false not_false fun ⟨_, h, _⟩ => nomatch h
  | some shadow =>
    have howner : w.parent? shadow = some p :=
      hw.exists_occupant?_iff.1 ⟨.slot slot, (occupant?_of_find? hb).trans hplace⟩
    obtain ⟨s, hs⟩ := contains_iff_find?.1 (contains_of_parent? howner)
    obtain ⟨w₁, hremove, hw₁, hlost, hparent, hclear⟩ := hw.remove_spec hs
    have hb₁ := hclear p _ b hb hplace
    rw [howner, Option.toList_some] at hlost
    -- the walk from the shadow does not come across a block without an owner
    have hcs : c ∉ w.descendants shadow := by
      intro hmem
      have hcroot := (parent?_of_find? hc).trans hroot
      rcases (hw.mem_descendants_iff.1 hmem).2 with rfl | habove
      · exact nomatch hcroot.symm.trans howner
      · exact not_above_of_root hcroot habove
    have hc₁ : w₁.find? c = some child := by
      rw [hlost.find?_eq hcs fun hmem => hne (List.mem_singleton.1 hmem), hc]
    have hconnect : w.connectValue p slot c = (.ok (), (w₁.fill p slot c).own p c) := by
      rw [Workspace.connectValue, h]
      simp only [hremove, plug_eq hb₁ hc₁]
    refine ⟨w₁, hconnect, hw₁, hlost.congr (fun x => ?_) fun _ hx _ => hx, fun x y hxy => ?_, hb₁,
      hc₁⟩
    · simp only [Option.mem_some_iff, exists_eq_left']
    · rwa [← hparent y (hlost.contains_iff.1 (contains_of_parent? hxy)).2]

/-- An expression that is admitted to a slot takes the place of the shadow there, if there is one.
What the shadow owns is lost with it, and all else but the new link is let be. -/
theorem connectValue_spec {r : Option BlockId} (h : w.admitValue p slot c = .ok r)
    (hb : w.find? p = some b) (hc : w.find? c = some child) :
    ∃ w', w.connectValue p slot c = (.ok (), w') ∧ w'.Consistent ∧
      w.Loses w' (fun x => ∃ shadow ∈ r, x ∈ w.descendants shadow) [p, c] ∧
      w'.find? p = some (b.hold (some c) (.slot slot)) ∧
      w'.find? c = some { child with parent := some p } := by
  obtain ⟨w₁, hconnect, hw₁, hlost, hmono, hb₁, hc₁⟩ := hw.makes_room h hb hc
  obtain ⟨b', child', check, output, hb', hslot, hc', hshape, hcompatible, hchild, -⟩ :=
    admitValue_eq_ok.1 h
  obtain rfl : b = b' := Option.some.inj (hb.symm.trans hb')
  obtain rfl : child = child' := Option.some.inj (hc.symm.trans hc')
  obtain ⟨hroot, hne, hacyclic⟩ := (hw.admitChild_iff hc).1 hchild
  have hadmits : (Slot.value check none).admits child.shape = true := by
    rw [hshape]
    exact hcompatible
  have hw' := hw₁.fill_own hb₁ (Block.find?_slots_hold hslot) rfl hc₁ hadmits hroot hne
    fun habove => hacyclic (habove.mono hmono)
  rw [fill_own_eq_setLink] at hconnect hw'
  refine ⟨_, hconnect, hw', ?_, ?_, find?_setLink_child hb₁ hc₁ hne⟩
  · refine (hlost.trans hw₁.loses_setLink).congr (fun x => ?_) fun x hx _ => ?_
    · rw [or_false]
    · simpa using hx
  · rw [find?_setLink_owner hb₁ hc₁ hne, Block.hold_hold]

/-- Once it is admitted, a connection to a value slot is made: a shadow that gives way takes neither
of the two blocks with it. -/
theorem connectValue_eq_ok_iff :
    (w.connectValue p slot c).1 = .ok () ↔ ∃ r, w.admitValue p slot c = .ok r := by
  cases h : w.admitValue p slot c with
  | error e =>
    rw [connectValue_of_error h]
    exact iff_of_false nofun fun ⟨_, h⟩ => nomatch h
  | ok r =>
    obtain ⟨b, child, _, _, hb, -, hc, -⟩ := admitValue_eq_ok.1 h
    obtain ⟨w', hconnect, -⟩ := hw.connectValue_spec h hb hc
    rw [hconnect]
    exact iff_of_true rfl ⟨r, rfl⟩

/-- A connection to a value slot keeps the workspace consistent, be it admitted or not. -/
theorem connectValue (p : BlockId) (slot : String) (c : BlockId) :
    (w.connectValue p slot c).2.Consistent := by
  cases h : w.admitValue p slot c with
  | error e =>
    rw [connectValue_of_error h]
    exact hw
  | ok r =>
    obtain ⟨b, child, _, _, hb, -, hc, -⟩ := admitValue_eq_ok.1 h
    obtain ⟨w', hconnect, hw', -⟩ := hw.connectValue_spec h hb hc
    rw [hconnect]
    exact hw'

end Consistent

end ScriptBlocks.Workspace
