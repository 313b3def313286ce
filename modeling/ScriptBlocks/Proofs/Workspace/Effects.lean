import Mathlib.Data.Set.Card
import ScriptBlocks.Proofs.Run

/-!
# What operations take away

A removal takes a block and all that it owns, at any depth, and an expression that is plugged into a
slot takes away the shadow there and what that owns. Both say so by how many blocks there are left
and by which, in what order, and what has become of each of them.

## Main statements

* `Workspace.Consistent.roots_eq` — the roots in their order
* `Workspace.Loses.size_add` — how many blocks are left
* `Workspace.remove_effect` — what is removed with a block
* `Workspace.connectValue_effect` — when an expression is plugged in, and what it replaces
-/

namespace ScriptBlocks.Workspace

variable {w w' : Workspace} {id p c x : BlockId} {b child : Block} {slot : String}

/-! ### Counting -/

/-- Each block has its place in the order. -/
theorem Consistent.length_order (hw : w.Consistent) : w.order.length = w.size := by
  have hnodup : w.order.Nodup := hw.sorted.imp fun h => Nat.ne_of_lt h
  have hperm : w.order.Perm w.blocks.keys := by
    refine (List.perm_ext_iff_of_nodup hnodup w.blocks.nodup).2 fun x => ?_
    rw [hw.mem_order]
    exact OrderedMap.contains_iff
  rw [hperm.length_eq, OrderedMap.keys, List.length_map]
  rfl

/-- Those that are gone and those that are left make up all the blocks that there were. -/
theorem Loses.size_add {gone : List BlockId} {touched : List BlockId} (hw : w.Consistent)
    (hw' : w'.Consistent) (h : w.Loses w' (· ∈ gone) touched) (hnodup : gone.Nodup)
    (hsub : ∀ x ∈ gone, w.contains x = true) : w'.size + gone.length = w.size := by
  have hgone : (w.order.filter fun x => !w'.contains x).Perm gone := by
    refine (List.perm_ext_iff_of_nodup ?_ hnodup).2 fun x => ?_
    · exact (hw.sorted.imp fun h => Nat.ne_of_lt h).filter _
    · rw [List.mem_filter, hw.mem_order, Bool.not_eq_true', ← Bool.not_eq_true, h.contains_iff]
      constructor
      · rintro ⟨hx, hnot⟩
        by_contra hleft
        exact hnot ⟨hx, hleft⟩
      · exact fun hx => ⟨hsub x hx, fun hleft => hleft.2 hx⟩
  rw [← hw.length_order, ← hw'.length_order, w.order.length_eq_length_filter_add w'.contains,
    h.order_eq, hgone.length_eq]

namespace Consistent

variable (hw : w.Consistent)
include hw

/-- The roots are the blocks without an owner, in the order in which they were created. -/
theorem roots_eq : w.roots = w.order.filter fun id => (w.parent? id).isNone := by
  rw [roots, blocksInOrder, List.filter_filterMap, List.map_filterMap, ← List.filterMap_eq_filter]
  refine List.filterMap_congr fun id hid => ?_
  obtain ⟨b, hb⟩ := contains_iff_find?.1 (hw.mem_order.1 hid)
  have hroot : (w.parent? id).isNone = b.isRoot := congrArg Option.isNone (parent?_of_find? hb)
  simp only [hb, Option.guard, Option.filter_some, hroot]
  cases b.isRoot with
  | false => rfl
  | true => exact congrArg some (hw.id_eq hb)

/-- A block owns just the others that the walk down from it meets. -/
theorem mem_descendants_iff_owns (h : w.contains id = true) :
    x ∈ w.descendants id ↔ x = id ∨ w.Owns id x := by
  rw [hw.mem_descendants_iff, hw.owns_iff, and_iff_right h]

/-- What is left keeps its owners when a block is removed with all below it, so no other root goes.
-/
theorem roots_eq_of_loses (hw' : w'.Consistent) {touched : List BlockId}
    (h : w.Loses w' (· ∈ w.descendants id) touched)
    (hparent : ∀ x, x ∉ w.descendants id → w'.parent? x = w.parent? x) :
    w'.roots = w.roots.filter (· ≠ id) := by
  rw [hw.roots_eq, hw'.roots_eq, h.order_eq, List.filter_filter, List.filter_filter]
  refine List.filter_congr fun x hx => ?_
  have hx := hw.mem_order.1 hx
  rw [Bool.eq_iff_iff]
  simp only [Bool.and_eq_true, Option.isNone_iff_eq_none, decide_eq_true_iff, h.contains_iff,
    and_iff_right hx]
  constructor
  · rintro ⟨hroot, hleft⟩
    refine ⟨?_, (hparent x hleft).symm.trans hroot⟩
    rintro rfl
    exact hleft (hw.mem_descendants_iff.2 ⟨hx, .inl rfl⟩)
  · rintro ⟨hne, hroot⟩
    have hleft : x ∉ w.descendants id := fun hmem =>
      (hw.mem_descendants_iff.1 hmem).2.elim hne (not_above_of_root hroot)
    exact ⟨(hparent x hleft).trans hroot, hleft⟩

end Consistent

/-- Whatever blocks a host has made, any of them can be removed. It goes with all that it owns,
which are as many blocks as the answer says, and the one link that leads to it is cleared. All else
stays as it was and where it was. -/
theorem remove_effect (commands : List Command)
    (hroom : (∅ : Workspace).creations commands < wordLimit) :
    let w := (∅ : Workspace).run commands
    ∀ id, w.contains id = true → ∃ n w', w.remove id = .ok (n, w') ∧
      w.Loses w' (fun x => x = id ∨ w.Owns id x) (w.parent? id).toList ∧
      {x | x = id ∨ w.Owns id x}.encard = n ∧ w'.size + n = w.size ∧
      (∀ p, w.parent? id = some p → ∃ place owner, w.find? p = some owner ∧
        (∀ q place', w.occupant? q place' = some id ↔ q = p ∧ place' = place) ∧
          w'.find? p = some (owner.hold none place)) ∧
      w'.roots = w.roots.filter (· ≠ id) := by
  intro w id hid
  obtain ⟨hw, -⟩ := consistent_run consistent_empty commands (room_empty hroom)
  obtain ⟨b, hb⟩ := contains_iff_find?.1 hid
  obtain ⟨w', hremove, hw', hlost, hparent, hclear⟩ := hw.remove_spec hb
  have howned {x : BlockId} : x ∈ w.descendants id ↔ x = id ∨ w.Owns id x :=
    hw.mem_descendants_iff_owns hid
  have hnodup := hw.nodup_descendants id
  refine ⟨_, w', hremove, hlost.congr (fun _ => howned) fun _ hx _ => hx, ?_,
    hlost.size_add hw hw' hnodup fun x hx => ?_, fun p hp => ?_,
    hw.roots_eq_of_loses hw' hlost hparent⟩
  · have hset : {x | x = id ∨ w.Owns id x} = ((w.descendants id).toFinset : Set BlockId) := by
      ext x
      rw [List.coe_toFinset]
      exact howned.symm
    rw [hset, Set.encard_coe_eq_coe_finsetCard, List.toFinset_card_of_nodup hnodup]
  · exact (hw.mem_descendants_iff.1 hx).2.elim (fun heq => heq ▸ hid) Above.contains_right
  · obtain ⟨place, hplace⟩ := hw.exists_place hp
    obtain ⟨owner, howner, hoccupant⟩ := occupant?_eq_some_iff.1 ((hplace p place).2 ⟨rfl, rfl⟩)
    exact ⟨place, owner, howner, hplace, hclear p place owner howner hoccupant⟩

/-- The first statement in a loop goes with the default literal in its slot and the statement after
it. -/
theorem remove_effect_in_loop :
    let commands : List Command :=
      [.create Dialect.vocabulary "forever" ∅, .create Dialect.vocabulary "show_number" ∅,
        .createShadow Dialect.vocabulary "math_number" ∅, .connectValue 2 "NUM" 3,
        .create Dialect.vocabulary "pause" ∅, .append 2 4, .connectStatement 1 "DO" 2,
        .create Dialect.vocabulary "pause" ∅]
    let w := (∅ : Workspace).run commands
    (∅ : Workspace).creations commands < wordLimit ∧ w.contains 2 = true ∧
      ∃ w', w.remove 2 = .ok (3, w') ∧ w.Loses w' (fun x => x = 2 ∨ w.Owns 2 x) [1] ∧
        w'.size = 2 ∧ w'.roots = [1, 5] := by
  intro commands w
  have h : (∅ : Workspace).creations commands < wordLimit ∧ w.contains 2 = true ∧
      (w.remove 2).toOption.map Prod.fst = some 3 ∧ w.parent? 2 = some 1 ∧ w.size = 5 ∧
      w.roots = [1, 5] := by decide +kernel
  obtain ⟨hroom, hid, hcount, hparent, hsize, hroots⟩ := h
  obtain ⟨n, w', hremove, hlost, -, hleft, -, hroots'⟩ := remove_effect commands hroom 2 hid
  rw [hremove] at hcount
  rw [hparent] at hlost
  rw [hroots] at hroots'
  obtain rfl : n = 3 := Option.some.inj hcount
  exact ⟨hroom, hid, w', hremove, hlost, Nat.add_right_cancel (hleft.trans hsize), hroots'⟩

/-! ### Giving way -/

namespace Consistent

variable (hw : w.Consistent)
include hw

/-- What it takes for an expression to be admitted to a slot. -/
theorem admitValue_eq_ok_iff {r : Option BlockId} : w.admitValue p slot c = .ok r ↔
    ∃ owner check child output, w.find? p = some owner ∧
      owner.slots.find? slot = some (.value check r) ∧
      (∀ s ∈ r, ∃ b, w.find? s = some b ∧ b.shadow = true) ∧
      w.find? c = some child ∧ child.shape = .expression output ∧
      Capability.compatible check output = true ∧
      child.parent = none ∧ c ≠ p ∧ ¬ w.Above c p := by
  rw [admitValue_eq_ok]
  constructor
  · rintro ⟨owner, child, check, output, hb, hslot, hc, hshape, hcompatible, hchild, hshadow⟩
    exact ⟨owner, check, child, output, hb, hslot, hshadow, hc, hshape, hcompatible,
      (hw.admitChild_iff hc).1 hchild⟩
  · rintro ⟨owner, check, child, output, hb, hslot, hshadow, hc, hshape, hcompatible, hfree⟩
    exact ⟨owner, child, check, output, hb, hslot, hc, hshape, hcompatible,
      (hw.admitChild_iff hc).2 hfree, hshadow⟩

/-- A block that does not own the owner of a slot is not owned together with what is in the slot. -/
theorem not_mem_descendants_of_above {shadow : BlockId} (hroot : w.parent? c = none)
    (habove : ¬ w.Above c p) (hne : c ≠ p) (hshadow : w.parent? shadow = some p)
    (hx : w.Above c x) : x ∉ w.descendants shadow := by
  intro hmem
  have hbelow : w.Above p x := by
    rcases (hw.mem_descendants_iff.1 hmem).2 with rfl | hshadowx
    · exact .single hshadow
    · exact .head hshadow hshadowx
  -- both are beneath the same root, which is `c`
  have htop : w.rootOf p = c := by
    rw [← hw.rootOf_of_above hbelow, hw.rootOf_of_above hx, rootOf_of_root hroot]
  rcases (hw.rootOf_eq_iff.1 htop).1 with heq | h
  · exact hne heq
  · exact habove h

end Consistent

/-- Whatever blocks a host has made, an expression is plugged into a slot just if there is a value
slot of that name, which is empty or holds a shadow, the two are compatible, and the expression has
no owner and is not above the slot. The shadow goes with all that it owns. But for that and the new
link nothing changes, neither in the other slots nor below the expression. -/
theorem connectValue_effect (commands : List Command)
    (hroom : (∅ : Workspace).creations commands < wordLimit) :
    let w := (∅ : Workspace).run commands
    ∀ (p : BlockId) (slot : String) (c : BlockId),
      ((w.connectValue p slot c).1 = .ok () ↔ ∃ occupant owner check child output,
        w.find? p = some owner ∧ owner.slots.find? slot = some (.value check occupant) ∧
        (∀ s ∈ occupant, ∃ b, w.find? s = some b ∧ b.shadow = true) ∧
        w.find? c = some child ∧ child.shape = .expression output ∧
        Capability.compatible check output = true ∧
        child.parent = none ∧ c ≠ p ∧ ¬ w.Above c p) ∧
      ∀ w', w.connectValue p slot c = (.ok (), w') → ∃ owner child,
        w.find? p = some owner ∧ w'.find? p = some (owner.hold (some c) (.slot slot)) ∧
        w'.occupant? p (.slot slot) = some c ∧
        w.find? c = some child ∧ w'.find? c = some { child with parent := some p } ∧
        w.Loses w' (fun x => ∃ s, w.occupant? p (.slot slot) = some s ∧ (x = s ∨ w.Owns s x))
          [p, c] ∧
        ∀ x, w.Owns c x → w'.find? x = w.find? x := by
  intro w p slot c
  obtain ⟨hw, -⟩ := consistent_run consistent_empty commands (room_empty hroom)
  constructor
  · rw [hw.connectValue_eq_ok_iff]
    exact exists_congr fun _ => hw.admitValue_eq_ok_iff
  · intro w' h
    obtain ⟨r, hadmit⟩ := hw.connectValue_eq_ok_iff.1 (congrArg Prod.fst h)
    obtain ⟨owner, check, child, output, hb, hslot, -, hc, -, -, hroot, hne, habove⟩ :=
      hw.admitValue_eq_ok_iff.1 hadmit
    obtain ⟨w₁, hconnect, -, hlost, hb', hc'⟩ := hw.connectValue_spec hadmit hb hc
    obtain rfl : w₁ = w' := congrArg Prod.snd (hconnect.symm.trans h)
    have hold : w.occupant? p (.slot slot) = r :=
      (occupant?_of_find? hb).trans (Block.occupant_slot hslot)
    have hshadow {s : BlockId} (hs : s ∈ r) : w.parent? s = some p :=
      hw.exists_occupant?_iff.1 ⟨_, hold.trans hs⟩
    refine ⟨owner, child, hb, hb', ?_, hc, hc', hlost.congr (fun x => ?_) fun _ hx _ => hx,
      fun x hx => ?_⟩
    · rw [occupant?_of_find? hb', Block.occupant_hold (Block.has_slot hslot), if_pos rfl]
    · rw [hold]
      exact exists_congr fun s => and_congr_right fun hs =>
        hw.mem_descendants_iff_owns (contains_of_parent? (hshadow hs))
    · rw [hw.owns_iff] at hx
      refine hlost.find?_eq ?_ ?_
      · rintro ⟨s, hs, hmem⟩
        exact hw.not_mem_descendants_of_above ((parent?_of_find? hc).trans hroot) habove hne
          (hshadow hs) hx hmem
      · rw [List.mem_cons, List.mem_singleton, not_or]
        exact ⟨fun heq => habove (heq ▸ hx), fun heq => hw.acyclic (heq ▸ hx)⟩

/-- A default sum gives way to a sum, and takes its one operand with it. -/
theorem connectValue_effect_of_sums :
    let commands : List Command :=
      [.create Dialect.vocabulary "show_number" ∅,
        .createShadow Dialect.vocabulary "math_arithmetic" ∅,
        .createShadow Dialect.vocabulary "math_number" ∅, .connectValue 2 "A" 3,
        .connectValue 1 "NUM" 2, .create Dialect.vocabulary "math_arithmetic" ∅,
        .create Dialect.vocabulary "math_number" ∅, .connectValue 4 "B" 5]
    let w := (∅ : Workspace).run commands
    (∅ : Workspace).creations commands < wordLimit ∧
      ∃ w', w.connectValue 1 "NUM" 4 = (.ok (), w') ∧
        w.Loses w' (fun x => x = 2 ∨ w.Owns 2 x) [1, 4] ∧ w'.find? 5 = w.find? 5 := by
  intro commands w
  have h : (∅ : Workspace).creations commands < wordLimit ∧
      (w.connectValue 1 "NUM" 4).1 = .ok () ∧ w.occupant? 1 (.slot "NUM") = some 2 ∧
      w.occupant? 4 (.slot "B") = some 5 := by decide +kernel
  obtain ⟨hroom, hconnect, hold, hoperand⟩ := h
  obtain ⟨-, heffect⟩ := connectValue_effect commands hroom 1 "NUM" 4
  obtain ⟨owner, child, -, -, -, -, -, hlost, hkept⟩ := heffect _ (Prod.ext hconnect rfl)
  refine ⟨hroom, _, Prod.ext hconnect rfl, hlost.congr (fun x => ?_) fun _ hx _ => hx, ?_⟩
  · rw [hold]
    exact ⟨fun ⟨_, hs, hx⟩ => Option.some.inj hs ▸ hx, fun hx => ⟨2, rfl, hx⟩⟩
  · exact hkept 5 (.single ⟨.slot "B", hoperand⟩)

end ScriptBlocks.Workspace
