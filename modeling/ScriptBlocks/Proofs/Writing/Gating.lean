import ScriptBlocks.Proofs.Dialect.Lines
import ScriptBlocks.Proofs.Writing.Footprint

/-!
# Gating

A block of a gated form has no text for just three reasons: it is disabled, something around it is,
or its stack does not start with an entry point. Turning a block on or off is of no consequence for
the text of any block but those around it, those it encloses and the block itself; so a statement
says nothing about those after it.

## Main statements

* `Dialect.exists_write_of_gated` — a gated form writes at least one line
* `Workspace.Consistent.write_switch` — what turning a block on or off leaves as it is
* `Workspace.write_eq_empty_iff` — when a gated block has no text
* `Workspace.exists_entry_of_write` — a gated block with a text has an entry point
-/

namespace ScriptBlocks

/-! ### Gated forms -/

namespace Dialect

/-- A gated form writes complete lines, and at least one. -/
theorem exists_write_of_gated {form : Form} (hform : form ∈ forms) (hgated : form.gated = true)
    (p : Parts) : ∃ code, form.write p = .ok (.statement code) ∧ code ≠ "" := by
  obtain ⟨code, hwrite, hline⟩ :=
    exists_write_of_statement hform (isExpression_of_gated hform hgated) p
  exact ⟨code, hwrite, hline.ne_empty⟩

theorem not_isContainer_of_gated {form : Form} (hform : form ∈ forms) (hgated : form.gated = true) :
    form.isContainer = false := by
  revert form
  decide

end Dialect

namespace Workspace

open Dialect

variable {w w' : Workspace} {v : Vocabulary} {o : WritingOptions} {id a c p : BlockId} {b : Block}
  {form : Form}

/-! ### The flag of one block -/

section Flag

variable {enabled : Bool}

/-- The block turned on or off. -/
def switch (w : Workspace) (a : BlockId) (enabled : Bool) : Workspace :=
  w.modify a fun b => { b with enabled := enabled }

theorem find?_switch_of_ne (h : id ≠ a) : (w.switch a enabled).find? id = w.find? id := by
  rw [switch, find?_modify, if_neg h]

theorem find?_switch_of_none (h : w.find? id = none) : (w.switch a enabled).find? id = none := by
  rw [switch, find?_modify, h, Option.map_none, ite_self]

/-- Each block is as before but for its flag. -/
theorem exists_find?_switch (h : w.find? id = some b) (a : BlockId) (enabled : Bool) :
    ∃ e, (w.switch a enabled).find? id = some { b with enabled := e } := by
  by_cases hid : id = a
  · exact ⟨enabled, by rw [switch, find?_modify, if_pos hid, h, Option.map_some]⟩
  · exact ⟨b.enabled, by rw [find?_switch_of_ne hid, h]⟩

/-- What does not look at the flag finds the same in each block. -/
theorem bind_find?_switch {α : Type} {f : Block → Option α}
    (hf : ∀ b e, f { b with enabled := e } = f b) (id : BlockId) :
    ((w.switch a enabled).find? id).bind f = (w.find? id).bind f := by
  cases h : w.find? id with
  | none => rw [find?_switch_of_none h]
  | some b =>
    obtain ⟨e, he⟩ := exists_find?_switch h a enabled
    rw [he, Option.bind_some, hf, Option.bind_some]

theorem parent?_switch (id : BlockId) : (w.switch a enabled).parent? id = w.parent? id :=
  (inert_enabled enabled).parent?_eq

theorem inSlot_switch_iff : (w.switch a enabled).InSlot p c ↔ w.InSlot p c := by
  rw [InSlot, InSlot]
  cases h : w.find? p with
  | none => rw [find?_switch_of_none h]
  | some b =>
    obtain ⟨e, he⟩ := exists_find?_switch h a enabled
    simp only [he, Option.some.injEq, exists_eq_left']

theorem precedes_switch_iff : (w.switch a enabled).Precedes p c ↔ w.Precedes p c := by
  rw [Precedes, Precedes, bind_find?_switch fun _ _ => rfl]

theorem encloses_switch : (w.switch a enabled).Encloses = w.Encloses := by
  funext p c
  refine propext ⟨fun h => ?_, fun h => ?_⟩
  · induction h with
    | slot h => exact .slot (inSlot_switch_iff.1 h)
    | next _ h ih => exact ih.next (precedes_switch_iff.1 h)
  · induction h with
    | slot h => exact .slot (inSlot_switch_iff.2 h)
    | next _ h ih => exact ih.next (precedes_switch_iff.2 h)

/-- Neither block is the other or lies in one of its slots, at any depth. -/
def Apart (w : Workspace) (a id : BlockId) : Prop :=
  ¬ Relation.ReflTransGen w.Encloses a id ∧ ¬ Relation.ReflTransGen w.Encloses id a

theorem Apart.ne (h : w.Apart a id) : id ≠ a := fun heq => h.1 (heq ▸ .refl)

namespace Consistent

variable (hw : w.Consistent)
include hw

theorem switch (a : BlockId) (enabled : Bool) : (w.switch a enabled).Consistent :=
  hw.modify (inert_enabled enabled)

theorem rootOf_switch (id : BlockId) : (w.switch a enabled).rootOf id = w.rootOf id := by
  have habove : (w.switch a enabled).Above = w.Above := by
    simp only [Above, parent?_switch]
  rw [(hw.switch a enabled).rootOf_eq_iff, habove, parent?_switch]
  exact hw.rootOf_eq_iff.1 rfl

/-- The flag of a block is not in the footprint of the blocks that it is apart from. -/
theorem sameFootprint_switch (hb : w.find? id = some b) (h : w.Apart a id) :
    w.SameFootprint (w.switch a enabled) id where
  exists_block := ⟨b, b, hb, (find?_switch_of_ne h.ne).trans hb, rfl, rfl, rfl, rfl⟩
  find?_eq {c} hc := by
    refine find?_switch_of_ne fun heq => h.2 ?_
    exact heq ▸ hc.to_reflTransGen
  off_iff := by
    rw [encloses_switch]
    refine exists_congr fun p => and_congr_right fun hp => ?_
    have hne : p ≠ a := fun heq => h.1 (heq ▸ hp.to_reflTransGen)
    rw [IsOff, IsOff, find?_switch_of_ne hne]
  form_rootOf := by
    rw [hw.rootOf_switch, Option.map_eq_bind, Option.map_eq_bind]
    exact bind_find?_switch (fun _ _ => rfl) _
  variableNames_eq := rfl

/-- The text of a block stays as it is if the changed block neither is around it nor in it. -/
theorem write_switch (hb : w.find? id = some b) (h : w.Apart a id) :
    write v o (w.switch a enabled) id = write v o w id := by
  rw [write, write, (hw.sameFootprint_switch hb h).render_eq hw (hw.switch a enabled)]

end Consistent

end Flag

/-! ### When a gated block has no text -/

/-- The block is of the form of an entry point. -/
def IsEntry (v : Vocabulary) (w : Workspace) (id : BlockId) : Prop :=
  ∃ b form, w.find? id = some b ∧ v.find? b.form = some form ∧ form.isContainer = true

theorem isEntry_iff : w.IsEntry v id ↔
    (((w.find? id).bind fun b => v.find? b.form).map Form.isContainer).getD false = true := by
  rw [IsEntry]
  cases w.find? id with
  | none => simp
  | some b =>
    cases hform : v.find? b.form with
    | none => simp [hform]
    | some form => simp [hform]

/-- Unless a gated block is suppressed, it leaves at least one line, if it can be written at all. -/
theorem write_eq_empty_iff_isSuppressed (hb : w.find? id = some b)
    (hform : vocabulary.find? b.form = some form) (hgated : form.gated = true) :
    write vocabulary o w id = .ok "" ↔ isSuppressed vocabulary w id = true := by
  have hget := Vocabulary.get_eq_ok_iff.2 hform
  rw [write, Workspace.render, renderWithin, get_of_find? hb]
  simp only [bind, Except.bind, hget, hgated, Bool.true_and]
  cases isSuppressed vocabulary w id with
  | true => simp [pure, Except.pure, Except.map, Fragment.code]
  | false =>
    simp only [Bool.false_eq_true, if_false, iff_false]
    cases w.parts vocabulary o (renderWithin vocabulary o w w.size) form b id with
    | error => rintro ⟨⟩
    | ok p =>
      obtain ⟨code, hwrite, hne⟩ := exists_write_of_gated (List.mem_of_find?_eq_some hform) hgated p
      intro h
      change (form.write p).map Fragment.code = .ok "" at h
      rw [hwrite] at h
      exact hne (Except.ok.inj h)

/-- A gated block is suppressed if it is disabled, something around it is, or no entry point is at
the top. -/
theorem Consistent.isSuppressed_iff (hw : w.Consistent) (h : w.contains id = true) :
    isSuppressed v w id = true ↔
      w.IsOff id ∨ (∃ p, Relation.TransGen w.Encloses p id ∧ w.IsOff p) ∨
        ∃ root, (root = id ∨ w.Above root id) ∧ w.parent? root = none ∧ ¬ w.IsEntry v root := by
  obtain ⟨habove, hroot⟩ := hw.rootOf_eq_iff.1 (rfl : w.rootOf id = w.rootOf id)
  have hentry : (∃ root, (root = id ∨ w.Above root id) ∧ w.parent? root = none ∧
      ¬ w.IsEntry v root) ↔ ¬ w.IsEntry v (w.rootOf id) := by
    constructor
    · rintro ⟨root, hid, hroot, hentry⟩
      rwa [hw.rootOf_eq_iff.2 ⟨hid, hroot⟩]
    · exact fun hentry => ⟨_, habove, hroot, hentry⟩
  rw [isSuppressed, Bool.or_eq_true, hw.isDisabled_iff h, or_assoc, hentry, isEntry_iff,
    Bool.not_eq_true', Bool.not_eq_true]

theorem Consistent.apart_of_precedes (hw : w.Consistent) (h : Relation.TransGen w.Precedes a id) :
    w.Apart a id := by
  obtain ⟨hne, hencloses⟩ := hw.not_encloses_of_precedes h
  have habove := hw.above_of_transGen_precedes h
  refine ⟨fun hreach => ?_, fun hreach => ?_⟩
  · rcases Relation.reflTransGen_iff_eq_or_transGen.1 hreach with heq | hreach
    · exact hne heq.symm
    · exact hencloses hreach
  · rcases Relation.reflTransGen_iff_eq_or_transGen.1 hreach with heq | hreach
    · exact hne heq
    · exact hw.acyclic (habove.trans (hw.above_of_transGen_encloses hreach))

/-- A block of a gated form has no text just if it is disabled, something in whose slots it lies at
any depth is, or the top of its stack is not an entry point. Whether a statement before it in its
chain is disabled makes no difference to its text. -/
theorem write_eq_empty_iff (commands : List Command)
    (hroom : (∅ : Workspace).creations commands < wordLimit) (o : WritingOptions)
    (hb : ((∅ : Workspace).run commands).find? id = some b)
    (hform : vocabulary.find? b.form = some form) (hgated : form.gated = true) :
    let w := (∅ : Workspace).run commands
    (write vocabulary o w id = .ok "" ↔
      w.IsOff id ∨ (∃ p, Relation.TransGen w.Encloses p id ∧ w.IsOff p) ∨
        ∃ root, (root = id ∨ w.Above root id) ∧ w.parent? root = none ∧
          ¬ w.IsEntry vocabulary root) ∧
    ∀ a enabled w', Relation.TransGen w.Precedes a id → w.setEnabled a enabled = .ok w' →
      write vocabulary o w' id = write vocabulary o w id := by
  intro w
  obtain ⟨hw, -⟩ := consistent_run consistent_empty commands (room_empty hroom)
  constructor
  · rw [write_eq_empty_iff_isSuppressed hb hform hgated]
    exact hw.isSuppressed_iff (contains_of_find? hb)
  · intro a enabled w' hprecedes hset
    obtain ⟨-, rfl⟩ := edit_eq_ok.1 hset
    exact hw.write_switch hb (hw.apart_of_precedes hprecedes)

/-- The loop is disabled, the first statement in it is not. -/
theorem write_eq_empty_in_disabled_loop :
    let commands : List Command :=
      [.create vocabulary "forever" ∅, .create vocabulary "pause" ∅,
        .create vocabulary "pause" ∅, .connectStatement 1 "DO" 2, .append 2 3,
        .setEnabled 1 false]
    let w := (∅ : Workspace).run commands
    write vocabulary {} w 3 = .ok "" ∧
      ∀ w', w.setEnabled 2 false = .ok w' → write vocabulary {} w' 3 = .ok "" := by
  intro commands w
  have h : (∅ : Workspace).creations commands < wordLimit ∧
      (∃ b ∈ w.find? 3, b.form = "pause") ∧
      (∃ loop ∈ w.find? 1, (∃ s ∈ loop.slots.values, s.occupant = some 2) ∧
        loop.enabled = false) ∧
      (w.find? 2).bind Block.next = some 3 := by decide +kernel
  obtain ⟨hroom, ⟨b, hb, hform⟩, ⟨loop, hloop, hslot, hoff⟩, hnext⟩ := h
  obtain ⟨hiff, hflag⟩ := write_eq_empty_iff commands hroom {} hb (hform ▸ rfl) (rfl : pause.gated = true)
  have hencloses : w.Encloses 1 3 := .next (.slot ⟨loop, hloop, hslot⟩) hnext
  have hempty := hiff.2 (.inr (.inl ⟨1, .single hencloses, loop, hloop, hoff⟩))
  exact ⟨hempty, fun w' hw' => (hflag 2 false w' (.single hnext) hw').trans hempty⟩

/-- A block of a gated form that has a text has an entry point at the top of its stack: it lies in a
slot of that, at some depth, or it or the outermost block around it comes after that in its chain. -/
theorem exists_entry_of_write (commands : List Command)
    (hroom : (∅ : Workspace).creations commands < wordLimit) {o : WritingOptions}
    (hb : ((∅ : Workspace).run commands).find? id = some b)
    (hform : vocabulary.find? b.form = some form) (hgated : form.gated = true) {code : String}
    (hcode : write vocabulary o ((∅ : Workspace).run commands) id = .ok code) (hne : code ≠ "") :
    let w := (∅ : Workspace).run commands
    let SurroundedBy := Relation.TransGen fun p c => w.surroundParent c = some p
    ∃ entry, w.parent? entry = none ∧ w.IsEntry vocabulary entry ∧
      (SurroundedBy entry id ∨
        ∃ m, (m = id ∨ SurroundedBy m id) ∧ Relation.TransGen w.Precedes entry m) := by
  intro w SurroundedBy
  obtain ⟨hw, -⟩ := consistent_run consistent_empty commands (room_empty hroom)
  have hsuppressed : ¬ isSuppressed vocabulary w id = true := by
    rw [← write_eq_empty_iff_isSuppressed hb hform hgated, hcode]
    exact fun h => hne (Except.ok.inj h)
  have hroot := (hw.rootOf_eq_iff.1 (rfl : w.rootOf id = w.rootOf id)).2
  have hentry : w.IsEntry vocabulary (w.rootOf id) := by
    by_contra hentry
    rw [hw.isSuppressed_iff (contains_of_find? hb)] at hsuppressed
    exact hsuppressed (.inr (.inr ⟨w.rootOf id, (hw.rootOf_eq_iff.1 rfl).1, hroot, hentry⟩))
  refine ⟨w.rootOf id, hroot, hentry, ?_⟩
  rw [show SurroundedBy = Relation.TransGen w.Encloses from
    congrArg Relation.TransGen hw.surroundParent_eq_encloses]
  obtain ⟨m, hm, htop | htop⟩ := hw.exists_outermost id
  · rcases hm with rfl | hm
    · -- the block is at the top itself, but no gated form is that of an entry point
      obtain ⟨b', form', hb', hform', hcontainer⟩ := hentry
      rw [htop] at hb'
      obtain rfl := Option.some.inj (hb.symm.trans hb')
      obtain rfl := Option.some.inj (hform.symm.trans hform')
      have := not_isContainer_of_gated (List.mem_of_find?_eq_some hform) hgated
      exact nomatch this.symm.trans hcontainer
    · exact .inl (htop ▸ hm)
  · exact .inr ⟨m, hm, htop⟩

/-- A pause that comes after a loop. -/
theorem exists_entry_of_pause :
    let commands : List Command := [.readDocument {} vocabulary "while True:\nbasic.pause(100)"]
    let w := (∅ : Workspace).run commands
    write vocabulary {} w 2 = .ok "basic.pause(100)\n" ∧
      ∃ entry, w.parent? entry = none ∧ w.IsEntry vocabulary entry ∧
        (Relation.TransGen (fun p c => w.surroundParent c = some p) entry 2 ∨
          ∃ m, (m = 2 ∨ Relation.TransGen (fun p c => w.surroundParent c = some p) m 2) ∧
            Relation.TransGen w.Precedes entry m) := by
  intro commands w
  have hroom : (∅ : Workspace).creations ([] ++ commands) < wordLimit :=
    creations_readDocument_lt takesAtMost_vocabulary Nat.two_pos (by decide)
  have h : (∃ b ∈ w.find? 2, b.form = "pause") ∧
      write vocabulary {} w 2 = .ok "basic.pause(100)\n" := by decide +kernel
  obtain ⟨⟨b, hb, hform⟩, hwrite⟩ := h
  exact ⟨hwrite, exists_entry_of_write commands hroom hb (hform ▸ rfl)
    (rfl : pause.gated = true) hwrite (by decide)⟩

/-- Lines are chained whatever they are, so a statement comes to stand after an entry point. -/
theorem text_after_entry :
    let w := (∅ : Workspace).run [.readDocument {} vocabulary "def on_start():\nbasic.pause(100)"]
    (∃ b, w.find? 2 = some b ∧ vocabulary.find? b.form = some pause) ∧ pause.gated = true ∧
      write vocabulary {} w 2 = .ok "basic.pause(100)\n" ∧
      ¬ ∃ p, Relation.TransGen (fun p c => w.surroundParent c = some p) p 2 ∧
        w.IsEntry vocabulary p := by
  intro w
  have hw : (∃ b ∈ w.find? 2, b.form = "pause") ∧
      write vocabulary {} w 2 = .ok "basic.pause(100)\n" ∧ w.surroundParent 2 = none := by
    decide +kernel
  obtain ⟨⟨b, hb, hform⟩, hwrite, hsurround⟩ := hw
  refine ⟨⟨b, hb, hform ▸ rfl⟩, rfl, hwrite, ?_⟩
  rintro ⟨p, hp, -⟩
  obtain ⟨q, -, hq⟩ := Relation.TransGen.tail'_iff.1 hp
  exact nomatch hsurround.symm.trans hq

end Workspace

end ScriptBlocks
