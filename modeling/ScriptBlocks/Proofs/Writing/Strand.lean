import ScriptBlocks.Proofs.Reading.Strand
import ScriptBlocks.Proofs.Writing.Expression
import ScriptBlocks.Proofs.Writing.Gating

/-!
# Writing statements without slots

A chain of statements of faithful forms that is put into a new entry point is written line by line,
and from the lines the same statements are read.

## Main definitions

* `Statement.Writes` — the line for a statement
* `Workspace.writeUnder` — the text of a chain in an entry point of its own

## Main statements

* `Dialect.ReadsLines.exists_written` — the lines for the statements of a document
* `Workspace.Strand.writeUnder_eq` — the text of a chain is made up of the lines
-/

namespace ScriptBlocks

open Dialect

/-- The form writes this line for the fields of the statement. -/
def Statement.Writes (s : Statement) (line : List Char) : Prop :=
  ∀ p : Parts, (∀ e ∈ s.given.entries, p.fields.find? e.1 = some e.2) →
    s.form.write p = .ok (.statement (.ofList (line ++ ['\n'])))

/-- Statements that are read off lines are written as lines off which they are read. The text ends
in a line feed, and behind that there is an empty line. -/
theorem Dialect.ReadsLines.exists_written {lines : List String} {ss : List Statement}
    (h : ReadsLines lines ss) : ∃ written : List (List Char), (∀ l ∈ written, Text.IsLine l) ∧
      List.Forall₂ Statement.Writes ss written ∧
      ReadsLines ((written ++ [[]]).map String.ofList) ss := by
  induction h with
  | nil => exact ⟨[], fun _ hl => absurd hl List.not_mem_nil, .nil, .ignored (by decide) .nil⟩
  | ignored hline h ih => exact ih
  | read hline hform h ih =>
    obtain ⟨written, hlines, hwrites, hreads⟩ := ih
    obtain ⟨line, hisLine, htrimmed, hreadsAs, hwrite⟩ := hform.exists_line hline.yields
    refine ⟨line :: written, List.forall_mem_cons.2 ⟨hisLine, hlines⟩, .cons hwrite hwrites,
      .read ?_ hform hreads⟩
    rwa [String.toList_ofList, Text.trim_of_trimmed htrimmed]

theorem join_lines (lines : List (List Char)) :
    String.join (lines.map fun l => .ofList (l ++ ['\n'])) = .ofList (Text.ended lines) := by
  induction lines with
  | nil => rfl
  | cons l lines ih =>
    rw [List.map_cons, String.join_cons, ih, ← String.ofList_append]
    rfl

/-- Entry points have one slot, for their body. -/
theorem find?_body_of_isContainer : ∀ form ∈ forms, form.isContainer = true →
    (OrderedMap.ofList (form.template.args.filterMap Slot.ofArg?)).find? "DO" =
      some (.statement none) := by
  decide

namespace Workspace

/-- Puts a chain into a new entry point. -/
def putUnder (w : Workspace) (entry : String) (head : BlockId) : Except Error Workspace := do
  let (p, w) ← w.create vocabulary entry ∅
  w.connectStatement p "DO" head

/-- The text of a chain that is put into a new entry point. -/
def writeUnder (o : WritingOptions) (w : Workspace) (entry : String) (head : BlockId) :
    Except Error String := do
  (← w.putUnder entry head).writeChain vocabulary o head

variable {w w' : Workspace} {p id x : BlockId} {b : Block} {s : Statement} {ss : List Statement}
  {ids : List BlockId} {written : List (List Char)} {o : WritingOptions}

theorem Consistent.isSuppressed_eq_false (hw : w.Consistent) {v : Vocabulary} (hx : w.Encloses p x)
    (hroot : w.parent? p = none) (hentry : w.IsEntry v p) (hp : ¬ w.IsOff p) (hoff : ¬ w.IsOff x) :
    isSuppressed v w x = false := by
  have habove := hw.above_of_encloses hx
  rw [← Bool.not_eq_true, hw.isSuppressed_iff habove.contains_right]
  rintro (h | ⟨q, hq, hqoff⟩ | ⟨root, hroot', htop, hnot⟩)
  · exact hoff h
  · -- nothing is around the entry point
    obtain ⟨r, hqr, hr⟩ := Relation.TransGen.tail'_iff.1 hq
    obtain rfl := hw.encloses_unique hr hx
    rcases Relation.reflTransGen_iff_eq_or_transGen.1 hqr with rfl | hqr
    · exact hp hqoff
    · exact not_above_of_root hroot (hw.above_of_transGen_encloses hqr)
  · have hp := hw.rootOf_eq_iff.2 ⟨.inr habove, hroot⟩
    have hr := hw.rootOf_eq_iff.2 ⟨hroot', htop⟩
    exact hnot (hr.symm.trans hp ▸ hentry)

/-- The block of a statement is written as its line. -/
theorem renderWithin_statement {n : Nat} {line : List Char} (hb : w.find? id = some b)
    (hnew : b.unlinked = s.block id) (hform : IsFaithful s.form)
    (hactive : isSuppressed vocabulary w id = false) (hwrites : s.Writes line) :
    renderWithin vocabulary o w (n + 1) id = .ok (.statement (.ofList (line ++ ['\n']))) := by
  have hname : b.form = s.form.name := (congrArg Block.form hnew :)
  have hfields : b.fields = (s.block id).fields := (congrArg Block.fields hnew :)
  have hslots : b.slots.entries = [] := by
    have hsame : b.slots = (s.block id).slots := (congrArg Block.slots hnew :)
    rw [hsame, Statement.block, Block.ofTemplate, hform.slots_eq]
    rfl
  obtain ⟨parts, hparts, hsame, -⟩ :=
    w.parts_single s.form o (renderWithin vocabulary o w n) id hslots
  have hwrite := hwrites parts fun e he => by
    rw [hsame, hfields]
    exact find?_fields_ofTemplate _ _ _ (OrderedMap.find?_eq_some_iff.2 he)
  rw [renderWithin, get_of_find? hb]
  simp only [bind, Except.bind, hname, hform.get_eq, hactive, Bool.and_false, Bool.false_eq_true,
    if_false, hparts, hwrite]

namespace Strand

theorem mapM_render (h : w.Strand ids ss) (hforms : ∀ s ∈ ss, IsFaithful s.form)
    (hwrites : List.Forall₂ Statement.Writes ss written)
    (hactive : ∀ id ∈ ids, isSuppressed vocabulary w id = false) :
    ids.mapM (Workspace.render vocabulary o w) =
      .ok (written.map fun l => .statement (.ofList (l ++ ['\n']))) := by
  induction h generalizing written with
  | nil =>
    cases hwrites
    rfl
  | cons hb hnext hnew h ih =>
    obtain ⟨line, written, hline, hrest, rfl⟩ := List.forall₂_cons_left_iff.1 hwrites
    rw [List.forall_mem_cons] at hforms hactive
    rw [List.mapM_cons, Workspace.render, ih hforms.2 hrest hactive.2,
      renderWithin_statement hb hnew hforms.1 hactive.1 hline]
    rfl

/-- The blocks all lie in the slot that the first one lies in. -/
theorem encloses (h : w.Strand (id :: ids) ss) (hid : w.Encloses p id) :
    ∀ x ∈ id :: ids, w.Encloses p x := by
  induction ids generalizing id ss with
  | nil => exact List.forall_mem_singleton.2 hid
  | cons next ids ih =>
    cases h with
    | cons hb hnext hnew h =>
      exact List.forall_mem_cons.2 ⟨hid, ih h (hid.next (precedes_iff.2 ⟨_, hb, hnext⟩))⟩

theorem exists_find? (h : w.Strand ids ss) : ∀ x ∈ ids, ∃ b, ∃ s ∈ ss, w.find? x = some b ∧
    b.unlinked = s.block x := by
  induction h with
  | nil => exact fun _ hx => absurd hx List.not_mem_nil
  | @cons id ids s ss b hb hnext hnew h ih =>
    refine List.forall_mem_cons.2 ⟨⟨b, s, List.mem_cons_self, hb, hnew⟩, fun x hx => ?_⟩
    obtain ⟨b, s, hs, hb, hnew⟩ := ih x hx
    exact ⟨b, s, List.mem_cons_of_mem _ hs, hb, hnew⟩

/-- A chain is put into a slot of a block without an owner, and stays as it is. -/
theorem exists_connectStatement (hw : w.Consistent) (h : w.Strand (id :: ids) ss)
    (hroot : w.parent? id = none) (hforms : ∀ s ∈ ss, IsFaithful s.form) {owner : Block}
    {slot : String} (hp : w.find? p = some owner) (howner : owner.parent = none)
    (hslot : owner.slots.find? slot = some (.statement none)) (hne : ∀ x ∈ id :: ids, x ≠ p) :
    ∃ w', w.connectStatement p slot id = .ok w' ∧ w'.Consistent ∧ w'.Strand (id :: ids) ss ∧
      w'.Encloses p id ∧ ∃ slots, w'.find? p = some { owner with slots } := by
  have hid := hne id List.mem_cons_self
  obtain ⟨b, s, hs, hb, hnew⟩ := h.exists_find? id List.mem_cons_self
  have hshape : b.shape.hasPrevious = true := by
    have hshape : b.shape = s.form.template.shape := (congrArg Block.shape hnew :)
    rw [hshape, (hforms s hs).shape_eq]
    rfl
  have hconnect := hw.connectStatement_eq hp hslot hb ((parent?_of_find? hb).symm.trans hroot) hshape
    hid (not_above_of_root ((parent?_of_find? hp).trans howner))
  have hfind {x : BlockId} (hx : x ≠ p) : ∀ b, w.find? x = some b →
      ∃ b', ((w.fill p slot id).own p id).find? x = some b' ∧ b'.next = b.next ∧
        b'.unlinked = b.unlinked := by
    intro b hb
    rw [own, find?_modify, fill, find?_modify, if_neg hx, hb]
    split
    · exact ⟨_, rfl, rfl, rfl⟩
    · exact ⟨_, rfl, rfl, rfl⟩
  have hheld : (owner.slots.modify slot (Slot.hold (some id))).find? slot =
      some (.statement (some id)) := by
    rw [OrderedMap.find?_modify, if_pos rfl, hslot]
    rfl
  have hfilled : ((w.fill p slot id).own p id).find? p =
      some { owner with slots := owner.slots.modify slot (Slot.hold (some id)) } := by
    rw [own, find?_modify, if_neg hid.symm, fill, find?_modify, if_pos rfl, hp, Option.map_some]
  exact ⟨_, hconnect, hw.connectStatement hconnect, h.mono fun x hx => hfind (hne x hx),
    .slot ⟨_, hfilled, _, OrderedMap.mem_values_of_find? hheld, rfl⟩, _, hfilled⟩

/-- A chain is put into a new entry point, where no part of it is silent. -/
theorem exists_putUnder (hw : w.Consistent) (h : w.Strand (id :: ids) ss)
    (hroot : w.parent? id = none) (hforms : ∀ s ∈ ss, IsFaithful s.form) (hroom : w.Room 1)
    {entry : Form} (hentry : entry ∈ forms) (hcontainer : entry.isContainer = true) :
    ∃ w', w.putUnder entry.name id = .ok w' ∧ w'.Strand (id :: ids) ss ∧
      ∀ x ∈ id :: ids, isSuppressed vocabulary w' x = false := by
  have hform : vocabulary.find? entry.name = some entry := Vocabulary.find?_of_mem hentry
  have hget := Vocabulary.get_eq_ok_iff.2 hform
  obtain ⟨p, w₁, hcreate⟩ := exists_create w hget ∅
  obtain ⟨hbuilds, -, hp⟩ := builds_create hw hget hroom hcreate
  have hold : ∀ x ∈ id :: ids, x ≤ w.lastId := fun x hx => hw.le_lastId (h.contains x hx)
  have hstrand : w₁.Strand (id :: ids) ss := h.mono fun x hx b hb =>
    ⟨b, (hbuilds.find?_eq (hold x hx)).trans hb, rfl, rfl⟩
  have hroot₁ : w₁.parent? id = none :=
    (parent?_congr (hbuilds.find?_eq (hold id List.mem_cons_self))).trans hroot
  obtain ⟨w', hconnect, hw', hstrand', hencloses, slots, hp'⟩ :=
    hstrand.exists_connectStatement hbuilds.consistent hroot₁ hforms hp rfl
      (find?_body_of_isContainer entry hentry hcontainer)
      fun x hx => Nat.ne_of_lt (Nat.lt_of_le_of_lt (hold x hx) hbuilds.lt_id)
  refine ⟨w', ?_, hstrand', fun x hx => ?_⟩
  · rw [putUnder, hcreate]
    exact hconnect
  · refine hw'.isSuppressed_eq_false (hstrand'.encloses hencloses x hx) (parent?_of_find? hp')
      ⟨_, entry, hp', hform, hcontainer⟩ ?_ ?_
    · rintro ⟨b, hb, hoff⟩
      obtain rfl := Option.some.inj (hp'.symm.trans hb)
      cases hoff
    · rintro ⟨b, hb, hoff⟩
      obtain ⟨b', s, -, hb', hnew⟩ := hstrand'.exists_find? x hx
      obtain rfl := Option.some.inj (hb.symm.trans hb')
      have hon : b.enabled = true := (congrArg Block.enabled hnew :)
      cases hon.symm.trans hoff

/-- In an entry point of its own, a chain is written as the lines for its statements. -/
theorem writeUnder_eq (hw : w.Consistent) (h : w.Strand (id :: ids) ss) (hnodup : (id :: ids).Nodup)
    (hroot : w.parent? id = none) (hforms : ∀ s ∈ ss, IsFaithful s.form)
    (hwrites : List.Forall₂ Statement.Writes ss written) (hroom : w.Room 1) {entry : Form}
    (hentry : entry ∈ forms) (hcontainer : entry.isContainer = true) :
    writeUnder o w entry.name id = .ok (.ofList (Text.ended written)) := by
  obtain ⟨w', hput, hstrand, hactive⟩ :=
    h.exists_putUnder hw hroot hforms hroom hentry hcontainer
  rw [writeUnder, hput]
  change chainText (Workspace.render vocabulary o w') w' id = _
  rw [chainText, hstrand.chain_eq hnodup, hstrand.mapM_render hforms hwrites hactive]
  refine congrArg Except.ok ?_
  rw [List.map_map, ← join_lines]
  rfl

end Strand

end Workspace

end ScriptBlocks
