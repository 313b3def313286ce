import Mathlib.Data.List.Pairwise
import ScriptBlocks.Proofs.Workspace.Connect
import ScriptBlocks.Proofs.Workspace.Downward

/-!
# Places

A block is linked from a place of its owner: one of the slots, or the end, where the next statement
comes. In a consistent workspace there is just one such place for each block that has an owner, and
to cut a link or to make one is to rewrite what stands at the place, and the owner that the block
names.

## Main definitions

* `Place`, `Block.occupant`, `Block.hold` — places, what stands there, and what else may
* `Workspace.Owns` — to be owned through slots and chains at any depth
* `Workspace.setLink` — both records of a link rewritten
* `Workspace.Loses` — blocks that are gone, with all the others in their places

## Main statements

* `Workspace.Consistent.exists_place` — a block with an owner is linked from just one place
* `Workspace.Consistent.disconnect_eq` — to detach a block is to clear that place
* `Workspace.setLink_setLink`, `Workspace.setLink_self` — a link that is rewritten can be restored
-/

namespace ScriptBlocks

/-- Where another block may be linked from a block: one of its slots, or its end. -/
inductive Place where
  | slot (name : String)
  | next
deriving DecidableEq

namespace Block

/-- The block that is linked from a place. -/
def occupant (b : Block) : Place → Option BlockId
  | .slot name => (b.slots.find? name).bind Slot.occupant
  | .next => b.next

/-- The block with `occupant` at a place instead. -/
def hold (occupant : Option BlockId) (place : Place) (b : Block) : Block :=
  match place with
  | .slot name => { b with slots := b.slots.modify name (Slot.hold occupant) }
  | .next => { b with next := occupant }

/-- The block has the place: a slot has to be there. -/
def Has (b : Block) : Place → Prop
  | .slot name => b.slots.contains name = true
  | .next => True

variable {b : Block} {place place' : Place} {c : BlockId} {x : Option BlockId}

theorem occupant_slot {name : String} {s : Slot} (h : b.slots.find? name = some s) :
    b.occupant (.slot name) = s.occupant := by
  rw [occupant, h, Option.bind_some]

theorem has_slot {name : String} {s : Slot} (h : b.slots.find? name = some s) :
    b.Has (.slot name) := by
  rw [Has, ← OrderedMap.find?_isSome, h, Option.isSome_some]

/-! ### Rewriting a place -/

@[simp] theorem parent_hold : (b.hold x place).parent = b.parent := by cases place <;> rfl

theorem hold_parent (q : Option BlockId) :
    ({ b with parent := q } : Block).hold x place = { b.hold x place with parent := q } := by
  cases place <;> rfl

@[simp] theorem hold_hold (y : Option BlockId) :
    (b.hold x place).hold y place = b.hold y place := by
  cases place with
  | next => rfl
  | slot name =>
    simp only [hold, OrderedMap.modify, OrderedMap.mapValues_mapValues]
    refine congrArg (fun slots => { b with slots }) (b.slots.mapValues_congr fun k s => ?_)
    by_cases hk : k = name
    · cases s <;> simp [hk, Slot.hold]
    · simp [hk]

theorem find?_slots_hold {name : String} {s : Slot} (h : b.slots.find? name = some s) :
    (b.hold x (.slot name)).slots.find? name = some (s.hold x) := by
  rw [hold, OrderedMap.find?_modify, if_pos rfl, h, Option.map_some]

/-- Putting back what stands there changes nothing. -/
theorem hold_occupant (b : Block) (place : Place) : b.hold (b.occupant place) place = b := by
  cases place with
  | next => rfl
  | slot name =>
    have hslots : b.slots.modify name (Slot.hold (b.occupant (.slot name))) = b.slots := by
      refine OrderedMap.mapValues_eq_self fun k s hs => ?_
      by_cases hk : k = name
      · subst hk
        rw [if_pos rfl, occupant_slot hs]
        cases s <;> rfl
      · exact if_neg hk
    simp only [hold, hslots]

/-- No other place is rewritten. -/
theorem occupant_hold (h : b.Has place) :
    (b.hold x place).occupant place' = if place' = place then x else b.occupant place' := by
  cases place with
  | next => cases place' <;> rfl
  | slot name =>
    cases place' with
    | next => rfl
    | slot name' =>
      rw [Has, ← OrderedMap.find?_isSome, Option.isSome_iff_exists] at h
      obtain ⟨s, hs⟩ := h
      simp only [occupant, hold, OrderedMap.find?_modify, Place.slot.injEq]
      by_cases hname : name' = name
      · subst hname
        rw [if_pos rfl, if_pos rfl, hs]
        cases s <;> rfl
      · rw [if_neg hname, if_neg hname]

/-! ### Places and children -/

theorem mem_children_iff : c ∈ b.children ↔ ∃ place, b.occupant place = some c := by
  rw [children, List.mem_append, List.mem_filterMap]
  constructor
  · rintro (⟨s, hs, hc⟩ | hc)
    · obtain ⟨⟨name, s⟩, he, rfl⟩ := List.mem_map.1 hs
      exact ⟨.slot name, (occupant_slot (OrderedMap.find?_eq_some_iff.2 he)).trans hc⟩
    · exact ⟨.next, Option.mem_toList.1 hc⟩
  · rintro ⟨name | -, hc⟩
    · obtain ⟨s, hs, hc⟩ := Option.bind_eq_some_iff.1 hc
      exact .inl ⟨s, OrderedMap.mem_values_of_find? hs, hc⟩
    · exact .inr (Option.mem_toList.2 hc)

/-- No block stands at two places. -/
theorem place_unique (hnodup : b.children.Nodup) (h : b.occupant place = some c)
    (h' : b.occupant place' = some c) : place = place' := by
  rw [children, List.nodup_append] at hnodup
  obtain ⟨hslots, -, hapart⟩ := hnodup
  -- a slot does not hold the next statement
  have hnot {name : String} (hslot : b.occupant (.slot name) = some c) : b.next ≠ some c := by
    intro hnext
    obtain ⟨s, hs, hc⟩ := Option.bind_eq_some_iff.1 hslot
    refine hapart c ?_ c (Option.mem_toList.2 hnext) rfl
    exact List.mem_filterMap.2 ⟨s, OrderedMap.mem_values_of_find? hs, hc⟩
  cases place with
  | next =>
    cases place' with
    | next => rfl
    | slot name' => exact absurd h (hnot h')
  | slot name =>
    cases place' with
    | next => exact absurd h' (hnot h)
    | slot name' =>
      obtain ⟨s, hs, hc⟩ := Option.bind_eq_some_iff.1 h
      obtain ⟨s', hs', hc'⟩ := Option.bind_eq_some_iff.1 h'
      by_contra hne
      have hentry : (name, s) ≠ (name', s') := fun heq =>
        hne (congrArg Place.slot (Prod.mk.inj heq).1)
      rw [OrderedMap.values, List.filterMap_map, List.Nodup, List.pairwise_filterMap] at hslots
      have hall := @List.Pairwise.forall _ _ _
        ⟨fun _ _ hapart x hx y hy hxy => hapart y hy x hx hxy.symm⟩ hslots
      exact hall (OrderedMap.find?_eq_some_iff.1 hs) (OrderedMap.find?_eq_some_iff.1 hs') hentry
        c hc c hc' rfl

/-- To drop the link to a block is to clear the place at which it stands. -/
theorem release_eq_hold (hnodup : b.children.Nodup) (h : b.occupant place = some c) :
    b.release c = b.hold none place := by
  rw [release]
  by_cases hnext : b.next = some c
  · obtain rfl : place = .next := place_unique hnodup h hnext
    rw [if_pos hnext, hold]
  · rw [if_neg hnext]
    cases place with
    | next => exact absurd h hnext
    | slot name =>
      have hslots : (b.slots.mapValues fun _ s => if s.occupant = some c then s.hold none else s) =
          b.slots.modify name (Slot.hold none) := by
        refine OrderedMap.mapValues_congr_of_find? fun k s hs => ?_
        have hiff : s.occupant = some c ↔ k = name := by
          rw [← occupant_slot hs]
          exact ⟨fun hk => Place.slot.inj (place_unique hnodup hk h), fun hk => hk ▸ h⟩
        simp only [hiff]
      rw [hold, hslots]

end Block

namespace Workspace

variable {w w₁ w' : Workspace} {id p q c x : BlockId} {b child : Block} {place place' : Place}

/-- The block that is linked from a place of the block `p`. -/
def occupant? (w : Workspace) (p : BlockId) (place : Place) : Option BlockId :=
  (w.find? p).bind (·.occupant place)

/-- The block `c` is owned by `p` through slots and chains, at any depth. -/
def Owns (w : Workspace) : BlockId → BlockId → Prop :=
  Relation.TransGen fun p c => ∃ place, w.occupant? p place = some c

/-- The workspace with the block that stands at a place of `p` rewritten, and the owner of `c`. -/
def setLink (w : Workspace) (p : BlockId) (place : Place) (c : BlockId)
    (occupant owner : Option BlockId) : Workspace :=
  (w.modify p (Block.hold occupant place)).modify c fun b => { b with parent := owner }

/-- On the way to `w'` just the blocks `gone` were lost. The others are still there, in their order,
and apart from those in `touched` they are as they were. -/
structure Loses (w w' : Workspace) (gone : BlockId → Prop) (touched : List BlockId) : Prop where
  contains_iff {x : BlockId} : w'.contains x = true ↔ w.contains x = true ∧ ¬ gone x
  find?_eq {x : BlockId} : ¬ gone x → x ∉ touched → w'.find? x = w.find? x
  order_eq : w'.order = w.order.filter w'.contains
  lastId_eq : w'.lastId = w.lastId
  variableNames_eq : w'.variableNames = w.variableNames

/-! ### Links -/

theorem occupant?_of_find? (h : w.find? p = some b) : w.occupant? p place = b.occupant place := by
  rw [occupant?, h, Option.bind_some]

theorem occupant?_eq_some_iff :
    w.occupant? p place = some c ↔ ∃ b, w.find? p = some b ∧ b.occupant place = some c :=
  Option.bind_eq_some_iff

theorem mem_childrenOf_iff : c ∈ w.childrenOf p ↔ ∃ place, w.occupant? p place = some c := by
  cases hb : w.find? p with
  | none => simp [childrenOf_of_find?_none hb, occupant?, hb]
  | some b => simp only [childrenOf_of_find? hb, occupant?_of_find? hb, Block.mem_children_iff]

namespace Consistent

variable (hw : w.Consistent)
include hw

theorem exists_occupant?_iff : (∃ place, w.occupant? p place = some c) ↔ w.parent? c = some p :=
  mem_childrenOf_iff.symm.trans hw.mem_children

/-- A link is recorded at both of its ends. -/
theorem exists_ends (h : w.occupant? p place = some c) :
    ∃ b child, w.find? p = some b ∧ b.occupant place = some c ∧
      w.find? c = some child ∧ child.parent = some p ∧ c ≠ p := by
  obtain ⟨b, hb, hplace⟩ := occupant?_eq_some_iff.1 h
  have hparent := hw.exists_occupant?_iff.1 ⟨place, h⟩
  obtain ⟨child, hc, howner⟩ := parent?_eq_some_iff.1 hparent
  exact ⟨b, child, hb, hplace, hc, howner, hw.ne_of_parent? hparent⟩

/-- What a block owns is what it is above: the ways down and up agree. -/
theorem owns_iff : w.Owns p c ↔ w.Above p c := by
  have hlink : (fun p c => ∃ place, w.occupant? p place = some c) =
      fun p c => w.parent? c = some p :=
    funext₂ fun _ _ => propext hw.exists_occupant?_iff
  rw [Owns, hlink, Above]

/-- A block with an owner is linked from one place only. -/
theorem exists_place (h : w.parent? c = some p) :
    ∃ place, ∀ q place', w.occupant? q place' = some c ↔ q = p ∧ place' = place := by
  obtain ⟨place, hplace⟩ := hw.exists_occupant?_iff.2 h
  refine ⟨place, fun q place' => ⟨fun hq => ?_, ?_⟩⟩
  · obtain rfl : p = q :=
      Option.some.inj (h.symm.trans (hw.exists_occupant?_iff.1 ⟨place', hq⟩))
    obtain ⟨b, hb, hq⟩ := occupant?_eq_some_iff.1 hq
    rw [occupant?_of_find? hb] at hplace
    exact ⟨rfl, Block.place_unique (hw.nodup_children_of_find? hb) hq hplace⟩
  · rintro ⟨rfl, rfl⟩
    exact hplace

/-- To detach a block is to clear the place at which it stands. -/
theorem disconnect_eq (h : w.occupant? p place = some c) :
    w.disconnect c = .ok (w.setLink p place c none none) := by
  obtain ⟨b, child, hb, hplace, hc, howner, -⟩ := hw.exists_ends h
  obtain ⟨b', hb', -, heq⟩ := hw.disconnect_of_parent hc howner
  obtain rfl : b = b' := Option.some.inj (hb.symm.trans hb')
  have hmodify : (w.modify p fun b => b.release c) = w.modify p (Block.hold none place) := by
    refine congrArg (fun blocks => { w with blocks }) ?_
    refine OrderedMap.mapValues_congr_of_find? fun k d hd => ?_
    by_cases hk : k = p
    · subst hk
      obtain rfl : b = d := Option.some.inj (hb.symm.trans hd)
      simp only [if_true, Block.release_eq_hold (hw.nodup_children_of_find? hb) hplace]
    · rw [if_neg hk, if_neg hk]
  rw [heq, hmodify, setLink]

end Consistent

/-! ### Rewriting links -/

@[simp] theorem contains_setLink {o q : Option BlockId} :
    (w.setLink p place c o q).contains x = w.contains x := by
  rw [setLink, contains_modify, contains_modify]

theorem find?_setLink {o q : Option BlockId} (hp : w.find? p = some b)
    (hc : w.find? c = some child) (hne : c ≠ p) : (w.setLink p place c o q).find? x =
      if x = c then some { child with parent := q } else if x = p then some (b.hold o place)
      else w.find? x :=
  find?_relink hp hc hne

theorem find?_setLink_owner {o q : Option BlockId} (hp : w.find? p = some b)
    (hc : w.find? c = some child) (hne : c ≠ p) :
    (w.setLink p place c o q).find? p = some (b.hold o place) := by
  rw [find?_setLink hp hc hne, if_neg hne.symm, if_pos rfl]

theorem find?_setLink_child {o q : Option BlockId} (hp : w.find? p = some b)
    (hc : w.find? c = some child) (hne : c ≠ p) :
    (w.setLink p place c o q).find? c = some { child with parent := q } := by
  rw [find?_setLink hp hc hne, if_pos rfl]

theorem parent?_setLink {o q : Option BlockId} (hp : w.find? p = some b)
    (hc : w.find? c = some child) (hne : c ≠ p) :
    (w.setLink p place c o q).parent? x = if x = c then q else w.parent? x :=
  parent?_relink hp hc hne Block.parent_hold

theorem fill_own_eq_setLink {slot : String} :
    (w.fill p slot c).own p c = w.setLink p (.slot slot) c (some c) (some p) :=
  rfl

/-- Only the last rewriting of a link counts. -/
theorem setLink_setLink (o q o' q' : Option BlockId) :
    (w.setLink p place c o q).setLink p place c o' q' = w.setLink p place c o' q' := by
  simp only [setLink, modify, OrderedMap.modify, OrderedMap.mapValues_mapValues]
  refine congrArg (fun blocks => { w with blocks }) (w.blocks.mapValues_congr fun k d => ?_)
  by_cases hp : k = p
  · by_cases hc : k = c
    · simp only [if_pos hp, if_pos hc, Block.hold_parent, Block.hold_hold]
    · simp only [if_pos hp, if_neg hc, Block.hold_hold]
  · by_cases hc : k = c
    · simp only [if_neg hp, if_pos hc]
    · simp only [if_neg hp, if_neg hc]

/-- Writing what is recorded changes nothing. -/
theorem setLink_self (hp : w.find? p = some b) (hc : w.find? c = some child) :
    w.setLink p place c (b.occupant place) child.parent = w := by
  simp only [setLink, modify, OrderedMap.modify, OrderedMap.mapValues_mapValues]
  refine congrArg (fun blocks => { w with blocks }) (OrderedMap.mapValues_eq_self fun k d hd => ?_)
  have hhold : (if k = p then d.hold (b.occupant place) place else d) = d := by
    by_cases hk : k = p
    · subst hk
      obtain rfl : b = d := Option.some.inj (hp.symm.trans hd)
      rw [if_pos rfl, Block.hold_occupant]
    · exact if_neg hk
  rw [hhold]
  by_cases hk : k = c
  · subst hk
    obtain rfl : child = d := Option.some.inj (hc.symm.trans hd)
    exact if_pos rfl
  · exact if_neg hk

/-! ### What is lost on the way -/

namespace Loses

variable {gone gone' : BlockId → Prop} {touched touched' : List BlockId}

theorem trans (h : w.Loses w₁ gone touched) (h' : w₁.Loses w' gone' touched') :
    w.Loses w' (fun x => gone x ∨ gone' x) (touched ++ touched') where
  contains_iff := by
    intro x
    rw [h'.contains_iff, h.contains_iff, not_or, and_assoc]
  find?_eq {x} hgone htouched := by
    rw [not_or] at hgone
    rw [List.mem_append, not_or] at htouched
    exact (h'.find?_eq hgone.2 htouched.2).trans (h.find?_eq hgone.1 htouched.1)
  order_eq := by
    rw [h'.order_eq, h.order_eq, List.filter_filter]
    refine List.filter_congr fun x _ => ?_
    rw [Bool.and_eq_left_iff_imp]
    exact fun hx => (h'.contains_iff.1 hx).1
  lastId_eq := h'.lastId_eq.trans h.lastId_eq
  variableNames_eq := h'.variableNames_eq.trans h.variableNames_eq

/-- Blocks that are gone need not be among those that were touched. -/
theorem congr (h : w.Loses w' gone touched) (hgone : ∀ x, gone x ↔ gone' x)
    (htouched : ∀ x ∈ touched, ¬ gone x → x ∈ touched') : w.Loses w' gone' touched' where
  contains_iff := by
    intro x
    rw [h.contains_iff, hgone]
  find?_eq {x} hx hx' :=
    have hx := mt (hgone x).1 hx
    h.find?_eq hx fun hmem => hx' (htouched x hmem hx)
  order_eq := h.order_eq
  lastId_eq := h.lastId_eq
  variableNames_eq := h.variableNames_eq

end Loses

namespace Consistent

variable (hw : w.Consistent)
include hw

theorem loses_refl : w.Loses w (fun _ => False) [] where
  contains_iff := (and_iff_left not_false).symm
  find?_eq _ _ := rfl
  order_eq := (List.filter_eq_self.2 fun _ hx => hw.mem_order.1 hx).symm
  lastId_eq := rfl
  variableNames_eq := rfl

/-- A link that is rewritten touches the blocks at its ends. -/
theorem loses_setLink {o q : Option BlockId} :
    w.Loses (w.setLink p place c o q) (fun _ => False) [p, c] where
  contains_iff := by
    intro x
    rw [contains_setLink, and_iff_left not_false]
  find?_eq {x} _ hx := by
    rw [List.mem_cons, List.mem_singleton, not_or] at hx
    rw [setLink, find?_modify, if_neg hx.2, find?_modify, if_neg hx.1]
  order_eq := (List.filter_eq_self.2 fun x hx => contains_setLink.trans (hw.mem_order.1 hx)).symm
  lastId_eq := rfl
  variableNames_eq := rfl

theorem loses_forget (ids : List BlockId) : w.Loses (w.forget ids) (· ∈ ids) [] where
  contains_iff := by
    intro x
    rw [contains_iff_find?, contains_iff_find?, find?_forget]
    by_cases h : x ∈ ids <;> simp [h]
  find?_eq {x} hx _ := by rw [find?_forget, if_neg hx]
  order_eq := by
    refine List.filter_congr fun x hx => ?_
    obtain ⟨b, hb⟩ := contains_iff_find?.1 (hw.mem_order.1 hx)
    rw [Bool.eq_iff_iff, contains_iff_find?, find?_forget]
    by_cases h : x ∈ ids <;> simp [h, hb]
  lastId_eq := rfl
  variableNames_eq := rfl

end Consistent

end Workspace

end ScriptBlocks
