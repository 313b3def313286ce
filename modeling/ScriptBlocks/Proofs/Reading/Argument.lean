import ScriptBlocks.Proofs.Reading.Assignment
import ScriptBlocks.Proofs.Reading.Depth
import ScriptBlocks.Proofs.Reading.Locality

/-!
# Forms with one argument

A block with one argument is created first; then the text of the argument is read, without a look at
the block that it is for, and what it became is plugged in. So two such forms with the same argument
build the same but for the block on top, and one form builds the same from two texts that differ in
what is wrapped around them.

## Main definitions

* `Workspace.TakesOne` — a form that reads a single argument off a match

## Main statements

* `Workspace.TakesOne.construct_congr` — one form with two texts
* `Workspace.TakesOne.construct_other` — two forms with one text
-/

namespace ScriptBlocks.Workspace

open Dialect

variable {w w₁ w' : Workspace} {p u : BlockId} {child owner : Block} {form form' : Form}
  {given given' rest rest' : Fields} {slot slot' text text' : String}
  {check check' output : Option Capability} {depth depth' : Nat}

/-- With these fields the form takes one argument, the text for the slot, and the rest are the fields
of its block. -/
structure TakesOne (form : Form) (given : Fields) (slot : String) (check : Option Capability)
    (text : String) (rest : Fields) : Prop where
  get_eq : vocabulary.get form.name = .ok form
  construction_eq : form.construction = .withArguments
  takeArguments_eq :
    takeArguments (form.template.valueSlots.map Prod.fst) given = ([(slot, text)], rest)
  find?_slot (id : BlockId) :
    (Block.ofTemplate id form.name form.template rest).slots.find? slot = some (.value check none)

namespace TakesOne

variable (h : TakesOne form given slot check text rest)

include h

theorem construct_eq {attach : Workspace → BlockId → String → String → Attempt Unit}
    (hcreate : w.create vocabulary form.name rest = .ok (p, w₁)) :
    construct vocabulary attach w form given = settle p (attach w₁ p slot text) := by
  rw [construct_of_takeArguments h.construction_eq h.takeArguments_eq hcreate, attachAll_singleton]

/-- The argument may be wrapped, and read with any depth that covers it. -/
theorem construct_congr (h' : TakesOne form given' slot check text' rest)
    (hbare : Expression.bare text = Expression.bare text') (hdepth : text.length ≤ depth)
    (hdepth' : text'.length ≤ depth') :
    construct vocabulary (attachArgument vocabulary depth) w form given =
      construct vocabulary (attachArgument vocabulary depth') w form given' := by
  obtain ⟨p, w₁, hcreate⟩ := exists_create w h.get_eq rest
  rw [h.construct_eq hcreate, h'.construct_eq hcreate,
    attachArgument_congr shortens_vocabulary hbare hdepth hdepth']

theorem constructCreations_eq {attach : Workspace → BlockId → String → String → Attempt Unit}
    {creations : Workspace → BlockId → String → String → Nat}
    (hcreate : w.create vocabulary form.name rest = .ok (p, w₁)) :
    constructCreations vocabulary attach creations w form given =
      1 + creations w₁ p slot text := by
  rw [constructCreations_of_takeArguments h.construction_eq h.takeArguments_eq hcreate,
    attachAllCreations]
  rcases attach w₁ p slot text with ⟨_ | _, w'⟩
  · rfl
  · rfl

/-- Where the slot of the block is filled, the block was created first, and then the argument was
built and plugged in. -/
theorem exists_of_construct (hw : w.Consistent)
    (hroom : w.Room (constructCreations vocabulary (attachArgument vocabulary depth)
      (attachArgumentCreations vocabulary depth) w form given))
    (hconstruct : construct vocabulary (attachArgument vocabulary depth) w form given =
      (.ok p, w'))
    (howner : w'.find? p = some owner)
    (hslot : owner.slots.find? slot = some (.value check (some u))) :
    ∃ d w₁ w₂ argument, depth = d + 1 ∧ w.create vocabulary form.name rest = .ok (p, w₁) ∧
      w₁.Consistent ∧ w₁.find? p = some (.ofTemplate p form.name form.template rest) ∧
      w₁.Room (attachArgumentCreations vocabulary depth w₁ p slot text) ∧
      ReadsArgument vocabulary d w₁ text argument u w₂ ∧ w₁.Builds w₂ u argument.name ∧
      w' = (w₂.fill p slot u).own p u := by
  obtain ⟨id, w₁, hcreate⟩ := exists_create w h.get_eq rest
  rw [h.construct_eq hcreate] at hconstruct
  rw [h.constructCreations_eq hcreate] at hroom
  obtain ⟨hbuilds, hspends, hfind⟩ := builds_create hw h.get_eq hroom.left hcreate
  replace hroom := hroom.of_spends hspends
  have hspec := attachArgument_spec hbuilds.consistent hfind (valueChild_ofTemplate ..) hroom
  rcases hattach : attachArgument vocabulary depth w₁ id slot text with ⟨_ | ⟨⟩, w₂⟩
  · rw [hattach] at hconstruct
    exact nomatch congrArg Prod.fst hconstruct
  · rw [hattach] at hconstruct hspec
    obtain ⟨hid, rfl⟩ := Prod.mk.inj hconstruct
    obtain rfl : id = p := Except.ok.inj hid
    rcases hspec with hsame | ⟨d, argument, x, w₃, hd, hreads, hargument, hplugged⟩
    · obtain rfl := Option.some.inj (howner.symm.trans hsame)
      rw [h.find?_slot] at hslot
      cases hslot
    · obtain ⟨-, rfl⟩ := Prod.mk.inj hplugged
      obtain ⟨c, hc, -⟩ := hargument.root
      have hne : id ≠ x := Nat.ne_of_lt (Nat.lt_of_le_of_lt
        (hbuilds.consistent.le_lastId (contains_of_find? hfind)) hargument.lt_id)
      rw [hargument.find?_own_fill hbuilds.consistent hfind hc, if_neg hne, if_pos rfl,
        Option.some.injEq] at howner
      obtain rfl : x = u := by
        rw [← howner, OrderedMap.find?_modify, if_pos rfl, h.find?_slot] at hslot
        simpa [Slot.hold] using hslot
      exact ⟨d, w₁, w₃, argument, hd, hcreate, hbuilds.consistent, hfind, hroom, hreads,
        hargument, rfl⟩

/-- A form with the same argument builds the same from it, if it takes the output too: only the block
on top is another one. -/
theorem construct_other (h' : TakesOne form' given' slot' check' text rest') (hw : w.Consistent)
    (hroom : w.Room (constructCreations vocabulary (attachArgument vocabulary depth)
      (attachArgumentCreations vocabulary depth) w form given))
    (hconstruct : construct vocabulary (attachArgument vocabulary depth) w form given =
      (.ok p, w'))
    (howner : w'.find? p = some owner)
    (hslot : owner.slots.find? slot = some (.value check (some u)))
    (hchild : w'.find? u = some child) (hshape : child.shape = .expression output)
    (hcompatible : Capability.compatible check' output = true) :
    ∃ w'', construct vocabulary (attachArgument vocabulary depth) w form' given' = (.ok p, w'') ∧
      w''.find? p = some { Block.ofTemplate p form'.name form'.template rest' with
        slots := (Block.ofTemplate p form'.name form'.template rest').slots.modify slot'
          (Slot.hold (some u)) } ∧ ∀ x, x ≠ p → w''.find? x = w'.find? x := by
  obtain ⟨d, w₁, w₂, argument, rfl, hcreate, hw₁, hfind, hroom, hreads, hargument, rfl⟩ :=
    h.exists_of_construct hw hroom hconstruct howner hslot
  have hle : p ≤ w₁.lastId := hw₁.le_lastId (contains_of_find? hfind)
  have hne : u ≠ p := Nat.ne_of_gt (Nat.lt_of_le_of_lt hle hargument.lt_id)
  obtain ⟨c, hc, -, hroot, -⟩ := hargument.root
  rw [hargument.find?_own_fill hw₁ hfind hc, if_pos rfl, Option.some.injEq] at hchild
  subst hchild
  -- the block on top is replaced before the argument is read
  let top := Block.ofTemplate p form'.name form'.template rest'
  let f : BlockId → Block → Block := fun x b => if x = p then top else b
  have hf : Spares f w₁.lastId := fun x hx =>
    funext fun b => if_neg (Nat.ne_of_gt (Nat.lt_of_le_of_lt hle hx))
  have hcreate' : w.create vocabulary form'.name rest' = .ok (p, w₁.alter f) :=
    create_eq_modify hcreate h'.get_eq rest'
  have hp : (w₂.alter f).find? p = some top := by
    rw [find?_alter, (hargument.find?_eq hle).trans hfind]
    exact congrArg some (if_pos rfl)
  have hu : (w₂.alter f).find? u = some c := (find?_alter_of_lt hf hargument.lt_id).trans hc
  have hadmit : (w₂.alter f).admitChild p u = .ok () := by
    refine admitChild_eq_ok.2 ⟨c, hu, hroot, hne, ?_⟩
    rw [ancestors_of_root (parent?_of_find? hp)]
    exact List.not_mem_nil
  have hconnect := connectValue_of_vacant
    (admitValue_of_admitChild hp (h'.find?_slot p) hu hshape hcompatible hadmit)
  have hreads' := hreads.alter hw₁ hf (.refl hw₁) hroom
  have hblocks (x : BlockId) := find?_relink (x := x) (q := some p)
    (f := fun b => { b with slots := b.slots.modify slot' (Slot.hold (some u)) }) hp hu hne
  refine ⟨_, ?_, (hblocks p).trans ((if_neg hne.symm).trans (if_pos rfl)), fun x hx => ?_⟩
  · rw [h'.construct_eq hcreate', hreads'.attachArgument_eq hconnect]
    rfl
  · rw [hargument.find?_own_fill hw₁ hfind hc]
    refine (hblocks x).trans ?_
    have hsame : (w₂.alter f).find? x = w₂.find? x := by
      have hid : f x = id := funext fun b => if_neg hx
      rw [find?_alter, hid]
      exact Option.map_id_apply
    rw [if_neg hx, if_neg hx, hsame]

end TakesOne

theorem takesOne_setting (k : Setting) (key text : String) :
    TakesOne k.form (fields [("VAR", .string key), (k.slot, .string text)]) k.slot k.check text
      (fields [("VAR", .string key)]) where
  get_eq := k.get_form
  construction_eq := k.construction_form
  takeArguments_eq := k.takeArguments_form ..
  find?_slot id := by
    rw [OrderedMap.find?_eq_some_iff, k.slots_ofTemplate]
    exact List.mem_cons_self

end ScriptBlocks.Workspace
