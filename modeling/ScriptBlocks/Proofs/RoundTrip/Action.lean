import ScriptBlocks.Proofs.Dialect.Action
import ScriptBlocks.Proofs.Run
import ScriptBlocks.Proofs.Writing.Strand

/-!
# Writing and reading actions

A document of actions may be spelled in many ways. The blocks that are read off it are written in one
way only, from which the same blocks are read.

## Main definitions

* `Dialect.IsAction` — lines that go to an action

## Main statements

* `Workspace.readDocument_actions` — actions come back from their text
-/

namespace ScriptBlocks

open Dialect

/-- The line goes to the form of an action, which can read it. -/
def Dialect.IsAction (line : String) : Prop :=
  ∃ e ∈ vocabulary.firstMatch line,
    e.1.name ∈ actions.map Form.name ∧ (e.1.readFields e.2).isOk = true

instance (line : String) : Decidable (IsAction line) :=
  inferInstanceAs (Decidable (∃ e ∈ vocabulary.firstMatch line,
    e.1.name ∈ actions.map Form.name ∧ (e.1.readFields e.2).isOk = true))

theorem Dialect.exists_readsAs_of_isAction {line : String} (h : IsAction line)
    (hkept : ({} : ReadingOptions).ignores line = false) :
    ∃ s : Statement, ReadsAs line s.form s.given ∧ IsFaithful s.form := by
  obtain ⟨⟨form, c⟩, hmatch, hname, hok⟩ := h
  have hforms : ∀ f ∈ actions, f ∈ forms := by
    simp [actions, forms]
  obtain ⟨action, haction, hsame⟩ := List.mem_map.1 hname
  obtain rfl := Vocabulary.eq_of_name_eq (hforms action haction) (Vocabulary.of_firstMatch hmatch).1 hsame
  cases hread : action.readFields c with
  | error e =>
    rw [hread] at hok
    cases hok
  | ok given => exact ⟨⟨action, given⟩, ⟨hkept, c, hmatch, hread⟩, isFaithful_of_mem_actions _ haction⟩

/-- Lines that are actions, or passed over, are read as statements. -/
theorem Dialect.exists_readsLines {lines : List String} (h : ∀ line ∈ lines,
      ({} : ReadingOptions).ignores (.ofList (Text.trim line.toList)) = true ∨
        IsAction (.ofList (Text.trim line.toList))) :
    ∃ ss, ReadsLines lines ss ∧ (ss = [] → ∀ line ∈ lines,
      ({} : ReadingOptions).ignores (.ofList (Text.trim line.toList)) = true) := by
  induction lines with
  | nil => exact ⟨[], .nil, fun _ _ hline => absurd hline List.not_mem_nil⟩
  | cons line lines ih =>
    rw [List.forall_mem_cons] at h
    obtain ⟨ss, hreads, hnil⟩ := ih h.2
    by_cases hignored : ({} : ReadingOptions).ignores (.ofList (Text.trim line.toList)) = true
    · exact ⟨ss, .ignored hignored hreads, fun hss => List.forall_mem_cons.2 ⟨hignored, hnil hss⟩⟩
    · obtain ⟨s, hread, hform⟩ := exists_readsAs_of_isAction (h.1.resolve_left hignored)
        (Bool.not_eq_true _ ▸ hignored)
      exact ⟨s :: ss, .read hread hform hreads, nofun⟩

namespace Workspace

variable {w w' : Workspace} {ids ids' : List BlockId} {s : Statement} {ss : List Statement}

/-- The two blocks are of the same form and have the same fields. -/
def SameContent (w w' : Workspace) (id id' : BlockId) : Prop :=
  ∃ b b', w.find? id = some b ∧ w'.find? id' = some b' ∧ b'.form = b.form ∧ b'.fields = b.fields

theorem Strand.sameContent (h : w.Strand ids ss) (h' : w'.Strand ids' ss) :
    List.Forall₂ (w.SameContent w') ids ids' := by
  induction h generalizing ids' with
  | nil =>
    cases h'
    exact .nil
  | cons hb hnext hnew h ih =>
    cases h' with
    | cons hb' hnext' hnew' h' =>
      refine .cons ⟨_, _, hb, hb', ?_, ?_⟩ (ih h')
      · exact (congrArg Block.form hnew' :).trans (congrArg Block.form hnew :).symm
      · exact (congrArg Block.fields hnew' :).trans (congrArg Block.fields hnew :).symm

/-- Statements become one chain, which is written line by line in any entry point. -/
theorem readDocument_written_statements {text : String} {written : List (List Char)}
    (h : ReadsLines ((Text.documentLines text.toList).map String.ofList) (s :: ss))
    (hwrites : List.Forall₂ Statement.Writes (s :: ss) written) (hw : w.Consistent)
    (hroom : w.Room ((s :: ss).length + 1)) :
    ∃ head rest w', w.readDocument {} vocabulary text =
        ({ blocks := head :: rest, unmatched := [], failures := [], unlinked := 0 }, w') ∧
      w'.Strand (head :: rest) (s :: ss) ∧ w'.chain head = head :: rest ∧
      ∀ entry ∈ forms, entry.isContainer = true → ∀ o,
        writeUnder o w' entry.name head = .ok (.ofList (Text.ended written)) := by
  obtain ⟨w', hread, hw', hspends, hstrand, hroot⟩ := readDocument_statements h hw hroom.left
  have hnodup : (List.range' (w.lastId + 1) (s :: ss).length).Nodup := List.nodup_range'
  rw [List.length_cons, List.range'_succ] at hread hstrand hroot hnodup
  refine ⟨_, _, w', hread, hstrand, hstrand.chain_eq hnodup, fun entry hentry hcontainer o => ?_⟩
  exact hstrand.writeUnder_eq hw' hnodup (hroot _ rfl) h.isFaithful hwrites
    (hroom.of_spends hspends) hentry hcontainer

/-- However the lines of a document of actions are spelled, what is written for its blocks in an entry
point is read as a chain of blocks of the same forms with the same fields, in the same order, and in
an entry point these are written as the same text again. -/
theorem readDocument_actions (source target : List Command) {text : String} {entry entry' : Form}
    (hlines : ∀ l ∈ Text.documentLines text.toList, let line := String.ofList (Text.trim l)
      ({} : ReadingOptions).ignores line = true ∨ IsAction line)
    (hsome : ∃ l ∈ Text.documentLines text.toList,
      ({} : ReadingOptions).ignores (.ofList (Text.trim l)) = false)
    (hentry : entry ∈ forms ∧ entry.isContainer = true)
    (hentry' : entry' ∈ forms ∧ entry'.isContainer = true)
    (hsource : (∅ : Workspace).creations source + (Text.documentLines text.toList).length + 1 <
      wordLimit)
    (htarget : (∅ : Workspace).creations target + (Text.documentLines text.toList).length + 1 <
      wordLimit) :
    let read := ((∅ : Workspace).run source).readDocument {} vocabulary text
    read.1.isClean = true ∧ ∃ head rest code, read.1.blocks = head :: rest ∧
      (∀ o, writeUnder o read.2 entry.name head = .ok code) ∧
      let read' := ((∅ : Workspace).run target).readDocument {} vocabulary code
      read'.1.isClean = true ∧
        List.Forall₂ (read.2.SameContent read'.2) read.1.blocks read'.1.blocks ∧
        ∃ head' rest', read'.1.blocks = head' :: rest' ∧ read'.2.chain head' = head' :: rest' ∧
          ∀ o, writeUnder o read'.2 entry'.name head' = .ok code := by
  intro read
  have hread_lines : ∀ line ∈ (Text.documentLines text.toList).map String.ofList,
      ({} : ReadingOptions).ignores (.ofList (Text.trim line.toList)) = true ∨
        IsAction (.ofList (Text.trim line.toList)) := by
    rw [List.forall_mem_map]
    simpa only [String.toList_ofList] using hlines
  obtain ⟨ss, hreads, hnil⟩ := exists_readsLines hread_lines
  obtain _ | ⟨s, ss⟩ := ss
  · obtain ⟨l, hl, hkept⟩ := hsome
    have hignored := hnil rfl _ (List.mem_map_of_mem hl)
    rw [String.toList_ofList] at hignored
    exact nomatch hkept.symm.trans hignored
  obtain ⟨written, hisLine, hwrites, hreads'⟩ := hreads.exists_written
  have hlength := hreads.length_le
  rw [List.length_map] at hlength
  have henough {m : Nat} (h : m + (Text.documentLines text.toList).length + 1 < wordLimit) :
      m + ((s :: ss).length + 1) < wordLimit :=
    Nat.lt_of_le_of_lt (Nat.add_le_add_left (Nat.succ_le_succ hlength) _) (Nat.add_assoc m _ 1 ▸ h)
  obtain ⟨hw, hroom⟩ := ready_run (henough hsource)
  obtain ⟨hw', hroom'⟩ := ready_run (henough htarget)
  rw [← Text.documentLines_ended hisLine, ← String.toList_ofList (l := Text.ended written)] at hreads'
  obtain ⟨head, rest, w, hread, hstrand, -, hcode⟩ :=
    readDocument_written_statements hreads hwrites hw hroom
  obtain ⟨head', rest', w', hread', hstrand', hchain, hcode'⟩ :=
    readDocument_written_statements hreads' hwrites hw' hroom'
  have hread : read = _ := hread
  rw [hread]
  refine ⟨rfl, head, rest, _, rfl, hcode entry hentry.1 hentry.2, ?_⟩
  rw [hread']
  exact ⟨rfl, hstrand.sameContent hstrand', head', rest', rfl, hchain,
    hcode' entry' hentry'.1 hentry'.2⟩

/-- Zeros in front, a comment in between, and an action inside of a longer line. -/
theorem readDocument_actions_of_spellings :
    let text := "basic.pause(007)\n# then\r\n  if ready: led.plot(3,4)  \nmusic.rest(1.50)"
    let read := ((∅ : Workspace).run []).readDocument {} vocabulary text
    read.1.isClean = true ∧ ∃ head rest code, read.1.blocks = head :: rest ∧
      (∀ o, writeUnder o read.2 forever.name head = .ok code) ∧
      let read' := ((∅ : Workspace).run []).readDocument {} vocabulary code
      read'.1.isClean = true ∧
        List.Forall₂ (read.2.SameContent read'.2) read.1.blocks read'.1.blocks ∧
        ∃ head' rest', read'.1.blocks = head' :: rest' ∧ read'.2.chain head' = head' :: rest' ∧
          ∀ o, writeUnder o read'.2 onStart.name head' = .ok code := by
  intro text
  have hlines : (∀ l ∈ Text.documentLines text.toList, let line := String.ofList (Text.trim l)
      ({} : ReadingOptions).ignores line = true ∨ IsAction line) ∧
      (∃ l ∈ Text.documentLines text.toList,
        ({} : ReadingOptions).ignores (.ofList (Text.trim l)) = false) ∧
      (Text.documentLines text.toList).length = 4 := by decide +kernel
  obtain ⟨hlines, hsome, hlength⟩ := hlines
  have hroom : (∅ : Workspace).creations [] + (Text.documentLines text.toList).length + 1 <
      wordLimit := by
    rw [hlength]
    decide
  have hforever : forever ∈ forms := List.mem_of_getElem? (i := 16) rfl
  have hstart : onStart ∈ forms := List.mem_of_getElem? (i := 17) rfl
  exact readDocument_actions [] [] hlines hsome ⟨hforever, rfl⟩ ⟨hstart, rfl⟩ hroom hroom

end Workspace

end ScriptBlocks
