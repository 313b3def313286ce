import ScriptBlocks.Proofs.Run
import ScriptBlocks.Proofs.Workspace.Derived

/-!
# Workspaces of one vocabulary

A host that takes all its forms from one vocabulary has a workspace in which each block is of one of
those forms and connects as the template of the form says: a block is made after its template, and
nothing changes its form or its connectors later.

## Main definitions

* `Command.Uses` — a command that takes its forms from a vocabulary
* `Command.slotOwner?` — the block on which a command declares slots
* `Block.SlotsWithin` — the slots of a block are slots of another
* `Workspace.FormedBy` — each block is made after a form of a vocabulary

## Main statements

* `Workspace.Derives.apply` — where blocks come from if a command declares no slots
* `Workspace.exists_of_apply`, `Workspace.framedBy_of_apply` — blocks with old and with new ids
* `Workspace.exists_of_run` — no block changes its form or loses a slot in a run
* `Workspace.FormedBy.apply` — commands that use the vocabulary make no other blocks
* `Workspace.formedBy_run` — and so do runs
-/

namespace ScriptBlocks

/-- The command takes its forms from the vocabulary, if it looks up any. -/
def Command.Uses (v : Vocabulary) : Command → Prop
  | .create u .. | .createShadow u .. | .readDocument _ u _ | .readLine _ u _ | .readAs u .. => u = v
  | _ => True

/-- The block on which the command declares slots, if it declares any. -/
def Command.slotOwner? : Command → Option BlockId
  | .addValueSlot id .. | .addStatementSlot id _ | .addElseIf id | .addElse id => some id
  | _ => none

namespace Block

variable {b b' b'' : Block}

/-- The block `b'` has the slots of `b`, whatever they hold, and perhaps more. -/
def SlotsWithin (b b' : Block) : Prop :=
  ∀ ⦃name : String⦄ ⦃s : Slot⦄, b.emptySlots.find? name = some s → b'.emptySlots.find? name = some s

theorem SlotsWithin.refl (b : Block) : b.SlotsWithin b := fun _ _ h => h

theorem SlotsWithin.trans (h : b.SlotsWithin b') (h' : b'.SlotsWithin b'') : b.SlotsWithin b'' :=
  fun _ _ hs => h' (h hs)

theorem SameFrame.slotsWithin (h : b.SameFrame b') : b.SlotsWithin b' :=
  fun _ _ hs => h.emptySlots ▸ hs

theorem slotsWithin_insertNew (b : Block) (name : String) (s : Slot) :
    b.SlotsWithin { b with slots := b.slots.insertNew name s } := by
  intro x t ht
  rw [emptySlots, OrderedMap.find?_mapValues] at ht ⊢
  obtain ⟨t', hfind, rfl⟩ := Option.map_eq_some_iff.1 ht
  rw [OrderedMap.find?_insertNew]
  split
  · next hx =>
    rw [← hx, hfind]
    rfl
  · rw [hfind]
    rfl

end Block

namespace Workspace

/-- Each block is of a form of the vocabulary, and connects as the template of the form says. -/
def FormedBy (v : Vocabulary) (w : Workspace) : Prop :=
  ∀ ⦃id : BlockId⦄ ⦃b : Block⦄, w.find? id = some b →
    ∃ form, v.find? b.form = some form ∧ b.shape = form.template.shape

variable {w w' : Workspace} {v : Vocabulary} {id : BlockId} {b' : Block} {command : Command}

/-! ### Where blocks come from -/

theorem Derives.orUnchanged {x : Except Error Workspace} (hx : ∀ w', x = .ok w' → w.Derives v w') :
    w.Derives v (w.orUnchanged x) := by
  cases x with
  | error => exact .refl v w
  | ok w' => exact hx w' rfl

/-- A command that declares no slots leaves the frames of the blocks as they are, and makes blocks
after the forms of its vocabulary. -/
theorem Derives.apply (w : Workspace) (huses : command.Uses v) (hslot : command.slotOwner? = none) :
    w.Derives v (w.apply command) := by
  have h : w.Derives v w := .refl v w
  cases command with
  | create u form fields =>
    obtain rfl : u = v := huses
    refine .orUnchanged fun _ hx => ?_
    obtain ⟨id, hid⟩ := map_snd_eq_ok hx
    exact h.create hid
  | createShadow u form fields =>
    obtain rfl : u = v := huses
    refine .orUnchanged fun _ hx => ?_
    obtain ⟨id, hid⟩ := map_snd_eq_ok hx
    exact h.createShadow hid
  | setField | setEnabled =>
    refine .orUnchanged fun _ hx => h.edit hx ?_
    exact fun _ => ⟨rfl, rfl, rfl⟩
  | addValueSlot | addStatementSlot | addElseIf | addElse => exact nomatch hslot
  | connectStatement => exact .orUnchanged fun _ hx => h.connectStatement hx
  | connectValue p slot c => exact h.connectValue p slot c
  | append head id => exact h.append head id
  | disconnect => exact .orUnchanged fun _ hx => h.disconnect hx
  | remove =>
    refine .orUnchanged fun _ hx => ?_
    obtain ⟨n, hn⟩ := map_snd_eq_ok hx
    exact h.remove hn
  | declareVariable => exact h
  | readDocument o u text =>
    obtain rfl : u = v := huses
    exact h.readDocument o text
  | readLine o u line =>
    obtain rfl : u = v := huses
    exact h.readLine o line
  | readAs u text form =>
    obtain rfl : u = v := huses
    exact h.readAs text form

/-! ### Declared slots -/

theorem exists_of_addSlot {x : BlockId} {slot : String} {s : Slot}
    (hadd : w.addSlot x slot s = .ok w') (hb' : w'.find? id = some b') :
    ∃ b, w.find? id = some b ∧ b.form = b'.form ∧ b.shape = b'.shape ∧ b.SlotsWithin b' ∧
      (x ≠ id → b = b') := by
  obtain ⟨-, rfl⟩ := edit_eq_ok.1 hadd
  rw [find?_modify] at hb'
  split at hb'
  · next heq =>
    obtain ⟨b, hb, rfl⟩ := Option.map_eq_some_iff.1 hb'
    exact ⟨b, hb, rfl, rfl, b.slotsWithin_insertNew slot s, fun hne => absurd heq.symm hne⟩
  · exact ⟨b', hb', rfl, rfl, .refl b', fun _ => rfl⟩

/-- A command that declares slots on a block leaves its form, its shape and the slots that it has as
they are, and the other blocks altogether. -/
theorem exists_of_slotOwner? {x : BlockId} (hslot : command.slotOwner? = some x)
    (hb' : (w.apply command).find? id = some b') :
    ∃ b, w.find? id = some b ∧ b.form = b'.form ∧ b.shape = b'.shape ∧ b.SlotsWithin b' ∧
      (x ≠ id → b = b') := by
  have horUnchanged {r : Except Error Workspace} (hr : (w.orUnchanged r).find? id = some b')
      (h : ∀ w', r = .ok w' → w'.find? id = some b' →
        ∃ b, w.find? id = some b ∧ b.form = b'.form ∧ b.shape = b'.shape ∧ b.SlotsWithin b' ∧
          (x ≠ id → b = b')) :
      ∃ b, w.find? id = some b ∧ b.form = b'.form ∧ b.shape = b'.shape ∧ b.SlotsWithin b' ∧
        (x ≠ id → b = b') := by
    cases r with
    | error => exact ⟨b', hr, rfl, rfl, .refl b', fun _ => rfl⟩
    | ok w' => exact h w' rfl hr
  cases command with
  | addValueSlot | addStatementSlot | addElse =>
    obtain rfl := Option.some.inj hslot
    exact horUnchanged hb' fun w' hx hfind => exists_of_addSlot hx hfind
  | addElseIf =>
    obtain rfl := Option.some.inj hslot
    refine horUnchanged hb' fun w' hx hfind => ?_
    obtain ⟨n, hn⟩ := map_snd_eq_ok hx
    simp only [addElseIf, bind_eq_ok, pure_eq_ok, Prod.mk.injEq] at hn
    obtain ⟨_, -, w₁, hvalue, w₂, hstatement, -, rfl⟩ := hn
    obtain ⟨b₁, hb₁, hform₁, hshape₁, hslots₁, hother₁⟩ := exists_of_addSlot hstatement hfind
    obtain ⟨b, hb, hform, hshape, hslots, hother⟩ := exists_of_addSlot hvalue hb₁
    exact ⟨b, hb, hform.trans hform₁, hshape.trans hshape₁, hslots.trans hslots₁,
      fun hne => (hother hne).trans (hother₁ hne)⟩
  | _ => cases hslot

/-! ### Old and new blocks -/

section

variable (hw : w.Consistent)
include hw

theorem find?_of_create {x : BlockId} {form : String} {fields : Fields}
    (hroom : w.Room (formCreations v form)) (hid : id ≤ w.lastId)
    (hcreate : w.create v form fields = .ok (x, w')) : w'.find? id = w.find? id ∧ id ≠ x := by
  obtain ⟨f, hf, hone⟩ := get_of_create_eq_ok hcreate
  obtain ⟨hbuilds, -, -⟩ := builds_create hw hf (hone ▸ hroom) hcreate
  exact ⟨hbuilds.find?_eq hid, Nat.ne_of_lt (Nat.lt_of_le_of_lt hid hbuilds.lt_id)⟩

/-- A block with an old id was there before the command. It keeps its slots, and unless some are
declared on it it has the same frame. -/
theorem exists_of_apply (hroom : w.Room (w.creationsOf command)) (hid : id ≤ w.lastId)
    (hb' : (w.apply command).find? id = some b') :
    ∃ b, w.find? id = some b ∧ b.form = b'.form ∧ b.SlotsWithin b' ∧
      (command.slotOwner? ≠ some id → b.SameFrame b') := by
  have hextends (h : w.Extends (w.apply command)) :
      ∃ b, w.find? id = some b ∧ b.form = b'.form ∧ b.SlotsWithin b' ∧
        (command.slotOwner? ≠ some id → b.SameFrame b') :=
    ⟨b', (h.find?_eq hid).symm.trans hb', rfl, .refl b', fun _ => .refl b'⟩
  cases hslot : command.slotOwner? with
  | some x =>
    obtain ⟨b, hb, hform, -, hslots, hother⟩ := exists_of_slotOwner? hslot hb'
    refine ⟨b, hb, hform, hslots, fun hne => ?_⟩
    obtain rfl := hother fun heq => hne (congrArg some heq)
    exact .refl b
  | none =>
    have hold (huses : command.Uses ∅) := Derives.apply w huses hslot hb'
    cases command with
    | create v form fields =>
      refine ⟨b', ?_, rfl, .refl b', fun _ => .refl b'⟩
      cases hcreate : w.create v form fields with
      | error e => rwa [apply, hcreate] at hb'
      | ok r =>
        rw [apply, hcreate] at hb'
        exact (find?_of_create hw hroom hid hcreate).1.symm.trans hb'
    | createShadow v form fields =>
      refine ⟨b', ?_, rfl, .refl b', fun _ => .refl b'⟩
      cases hshadow : w.createShadow v form fields with
      | error e => rwa [apply, hshadow] at hb'
      | ok r =>
        obtain ⟨w₁, hcreate, hr⟩ := createShadow_eq_ok.1 hshadow
        obtain ⟨hfind, hne⟩ := find?_of_create hw hroom hid hcreate
        rw [apply, hshadow] at hb'
        change r.2.find? id = some b' at hb'
        rw [hr, find?_modify, if_neg hne] at hb'
        exact hfind.symm.trans hb'
    | readDocument o v text =>
      obtain ⟨hplants, -, -⟩ := readDocument_spec (o := o) (v := v) hw text hroom
      exact hextends hplants.toExtends
    | readLine o v line =>
      obtain ⟨hplants, -, -⟩ := readLine_spec (o := o) (v := v) hw line hroom
      exact hextends hplants.toExtends
    | readAs v text form =>
      obtain ⟨hplants, -⟩ := readAs_spec (v := v) hw text form hroom
      exact hextends hplants.toExtends
    | _ =>
      -- the others take no forms, not even from the empty vocabulary
      rcases hold trivial with ⟨b, hb, hframe⟩ | ⟨form, hform, -⟩
      · exact ⟨b, hb, hframe.form, hframe.slotsWithin, fun _ => hframe⟩
      · exact nomatch hform

/-- A block with a new id is framed by a form of the vocabulary. -/
theorem framedBy_of_apply (huses : command.Uses v) (hid : w.lastId < id)
    (hb' : (w.apply command).find? id = some b') :
    ∃ form, v.find? b'.form = some form ∧ b'.FramedBy form := by
  have hnew (b : Block) (hb : w.find? id = some b) : False :=
    Option.some_ne_none b (hb.symm.trans (hw.find?_of_lastId_lt hid))
  cases hslot : command.slotOwner? with
  | some x =>
    obtain ⟨b, hb, -⟩ := exists_of_slotOwner? hslot hb'
    exact (hnew b hb).elim
  | none =>
    rcases Derives.apply w huses hslot hb' with ⟨b, hb, -⟩ | hframed
    · exact (hnew b hb).elim
    · exact hframed

/-- No block gets an old id in a run, and none changes its form or loses a slot. -/
theorem exists_of_run {commands : List Command} (hroom : w.Room (w.creations commands))
    (hid : id ≤ w.lastId) (hb' : (w.run commands).find? id = some b') :
    ∃ b, w.find? id = some b ∧ b.form = b'.form ∧ b.SlotsWithin b' := by
  induction commands generalizing w with
  | nil => exact ⟨b', hb', rfl, .refl b'⟩
  | cons command commands ih =>
    rw [creations] at hroom
    obtain ⟨hw₁, hspends⟩ := hw.apply command hroom.left
    have hid₁ : id ≤ (w.apply command).lastId := by
      rw [hspends]
      exact Nat.le_add_right_of_le hid
    obtain ⟨b₁, hb₁, hform₁, hslots₁⟩ := ih hw₁ (hroom.of_spends hspends) hid₁ hb'
    obtain ⟨b, hb, hform, hslots, -⟩ := exists_of_apply hw hroom.left hid hb₁
    exact ⟨b, hb, hform.trans hform₁, hslots.trans hslots₁⟩

end

/-! ### Blocks of one vocabulary -/

theorem formedBy_empty : (∅ : Workspace).FormedBy v := fun _ _ h => nomatch h

namespace FormedBy

theorem of_derives (h : w.FormedBy v) (hderives : w.Derives v w') : w'.FormedBy v := by
  intro id b hb
  rcases hderives hb with ⟨b₀, hb₀, hframe⟩ | ⟨form, hform, _, _, hframe⟩
  · rw [← hframe.form, ← hframe.shape]
    exact h hb₀
  · exact ⟨form, hform, hframe.shape⟩

theorem apply (h : w.FormedBy v) (huses : command.Uses v) : (w.apply command).FormedBy v := by
  cases hslot : command.slotOwner? with
  | none => exact h.of_derives (.apply w huses hslot)
  | some x =>
    intro id b' hb'
    obtain ⟨b, hb, hform, hshape, -⟩ := exists_of_slotOwner? hslot hb'
    rw [← hform, ← hshape]
    exact h hb

end FormedBy

/-- Commands that take their forms from one vocabulary make no other blocks. -/
theorem formedBy_run {commands : List Command} (huses : ∀ command ∈ commands, command.Uses v) :
    ((∅ : Workspace).run commands).FormedBy v := by
  suffices h : ∀ w : Workspace, w.FormedBy v → (w.run commands).FormedBy v from h ∅ formedBy_empty
  induction commands with
  | nil => exact fun _ h => h
  | cons command commands ih =>
    rw [List.forall_mem_cons] at huses
    exact fun w h => ih huses.2 _ (h.apply huses.1)

end Workspace

end ScriptBlocks
