import ScriptBlocks.Proofs.Reading.Account
import ScriptBlocks.Proofs.Reading.Expression
import ScriptBlocks.Proofs.Reading.Silence
import ScriptBlocks.Proofs.Run
import ScriptBlocks.Proofs.Writing.Conditional

/-!
# Writing and reading a conditional

A conditional whose first condition is empty is written with a constant in its place, and that line
is read as a conditional. The header of a further arm is to contribute nothing, but where its
condition is a comparison, a call or the name `if`, another form takes the line.

## Main statements

* `Dialect.isSilent_elifHeader_iff` — the headers that contribute nothing
* `Workspace.readDocument_writtenConditional_iff` — which conditionals are read as one block
-/

namespace ScriptBlocks

open Expression Dialect

/-! ### The lines -/

namespace Dialect

variable {f : Formula} {condition : Option Formula} {further : List (Option Formula)}
  {hasElse : Bool}

/-- A text that can stand in a header. -/
theorem isLine_conditionCode {default : String} (hdefault : Text.IsLine default.toList)
    (h : ∀ f, condition = some f → f.Valid) :
    Text.IsLine (conditionCode default condition).toList := by
  cases condition with
  | none => exact hdefault
  | some f =>
    obtain ⟨ops, hchunk, -⟩ := (Formula.reads_regroup (h f rfl)).chunk
    exact ⟨hchunk.not_mem.1, hchunk.not_mem.2.1⟩

theorem isLine_elifHeader (h : ∀ f, condition = some f → f.Valid) :
    Text.IsLine (elifHeader condition) := by
  have hdefault : Text.IsLine "False".toList := ⟨by decide, by decide⟩
  obtain ⟨hfeed, hreturn⟩ := isLine_conditionCode hdefault h
  rw [elifHeader_eq]
  constructor
  · simp [hfeed]
  · simp [hreturn]

theorem trim_elifHeader (condition : Option Formula) :
    Text.trim (elifHeader condition) = elifHeader condition := by
  rw [elifHeader_eq]
  apply Text.trim_of_trimmed
  constructor
  · intro c hc
    obtain rfl := Option.some.inj hc
    decide
  · intro c hc
    rw [← List.cons_append, ← List.cons_append, ← List.cons_append, ← List.cons_append,
      ← List.cons_append, List.getLast?_concat] at hc
    obtain rfl := Option.some.inj hc
    decide

/-- A header is no comment and no word of its own. -/
theorem ignores_elifHeader (condition : Option Formula) :
    ({} : ReadingOptions).ignores (.ofList (elifHeader condition)) = false := by
  rw [elifHeader_eq]
  apply Workspace.ignores_eq_false (by decide)
  intro h
  exact absurd (List.cons.inj h).1 (by decide)

/-- The header of an arm contributes nothing exactly if its condition is quiet. -/
theorem isSilent_elifHeader_iff (h : ∀ f, condition = some f → f.Valid ∧
    Capability.compatible (some .boolean) f.output = true) :
    ({} : ReadingOptions).IsSilent vocabulary (.ofList (elifHeader condition)) ↔
      IsQuiet condition := by
  rw [ReadingOptions.IsSilent, String.toList_ofList, trim_elifHeader,
    ignores_elifHeader, firstMatch_header_eq_none_iff h]
  simp only [Bool.false_eq_true, false_or]

/-- The lines behind the first one are placeholders and headers. -/
theorem mem_tail_conditionalLines {l : List Char}
    (h : l ∈ (conditionalLines none further hasElse).tail) :
    l = placeholder ∨ l = "else:".toList ∨ ∃ condition ∈ further, l = elifHeader condition := by
  have hsplit : (conditionalLines none further hasElse).tail = placeholder ::
      ((further.flatMap fun condition => [elifHeader condition, placeholder]) ++
        if hasElse then ["else:".toList, placeholder] else []) := rfl
  rw [hsplit, List.mem_cons, List.mem_append, List.mem_flatMap] at h
  rcases h with h | ⟨condition, hcondition, h⟩ | h
  · exact .inl h
  · rcases List.mem_cons.1 h with h | h
    · exact .inr (.inr ⟨condition, hcondition, h⟩)
    · exact .inl (List.mem_singleton.1 h)
  · cases hasElse with
    | false => exact absurd h List.not_mem_nil
    | true =>
      rcases List.mem_cons.1 h with h | h
      · exact .inr (.inl h)
      · exact .inl (List.mem_singleton.1 h)

theorem elifHeader_mem_tail (h : condition ∈ further) :
    elifHeader condition ∈ (conditionalLines none further hasElse).tail := by
  refine List.mem_cons_of_mem _ (List.mem_append_left _ (List.mem_flatMap.2 ⟨condition, h, ?_⟩))
  exact List.mem_cons_self

/-- The lines of a conditional without a first condition. -/
theorem documentLines_conditionalText
    (h : ∀ condition ∈ further, ∀ f, condition = some f → f.Valid) :
    (Text.documentLines (conditionalText none further hasElse).toList).map String.ofList =
      "if True:" :: ((conditionalLines none further hasElse).tail ++ [[]]).map String.ofList := by
  have hlines : ∀ l ∈ conditionalLines none further hasElse, Text.IsLine l := by
    intro l hl
    rcases List.mem_cons.1 hl with rfl | hl
    · exact ⟨by decide, by decide⟩
    · rcases mem_tail_conditionalLines hl with rfl | rfl | ⟨condition, hcondition, rfl⟩
      · exact ⟨by decide, by decide⟩
      · exact ⟨by decide, by decide⟩
      · exact isLine_elifHeader (h condition hcondition)
  rw [conditionalText, String.toList_ofList, Text.documentLines_ended hlines]
  rfl

/-- Apart from the first one, the lines of a conditional contribute nothing exactly if the further
conditions are quiet. -/
theorem isSilent_conditionalLines_iff (h : ∀ condition ∈ further, ∀ f, condition = some f →
    f.Valid ∧ Capability.compatible (some .boolean) f.output = true) :
    (∀ line ∈ ((conditionalLines none further hasElse).tail ++ [[]]).map String.ofList,
      ({} : ReadingOptions).IsSilent vocabulary line) ↔
        ∀ condition ∈ further, IsQuiet condition := by
  constructor
  · intro hlines condition hcondition
    rw [← isSilent_elifHeader_iff (h condition hcondition)]
    apply hlines
    exact List.mem_map_of_mem (List.mem_append_left _ (elifHeader_mem_tail hcondition))
  · intro hquiet line hline
    obtain ⟨l, hl, rfl⟩ := List.mem_map.1 hline
    rcases List.mem_append.1 hl with hl | hl
    · rcases mem_tail_conditionalLines hl with rfl | rfl | ⟨condition, hcondition, rfl⟩
      · exact .inl (by decide +kernel)
      · exact .inr (by decide +kernel)
      · exact (isSilent_elifHeader_iff (h condition hcondition)).2 (hquiet condition hcondition)
    · rw [List.mem_singleton.1 hl]
      exact .inl (by decide +kernel)

end Dialect

/-! ### The first line -/

namespace Workspace

variable {w : Workspace}

/-- The line of an empty condition is read as a conditional on a constant. -/
theorem readLine_if (hw : w.Consistent)
    (hroom : w.Room (readLineCreations {} vocabulary w "if True:")) :
    ∃ p w', w.readLine {} vocabulary "if True:" = (.built p, w') ∧
      w'.IsConditional p (some (.leaf (.truth true))) [] false := by
  have htrim : String.ofList (Text.trim "if True:".toList) = "if True:" := by decide +kernel
  have hkept : ({} : ReadingOptions).ignores "if True:" = false := by decide +kernel
  obtain ⟨c, hmatch, hread⟩ : ∃ c, vocabulary.firstMatch "if True:" = some (controlsIf, c) ∧
      controlsIf.readFields c = .ok (fields [("IF0", "True")]) := by
    have hread : (vocabulary.firstMatch "if True:").map (fun e => (e.1.name, e.1.readFields e.2)) =
        some (controlsIf.name, .ok (fields [("IF0", "True")])) := by decide +kernel
    obtain ⟨⟨form, c⟩, hmatch, heq⟩ := Option.map_eq_some_iff.1 hread
    obtain ⟨hname, hfields⟩ := Prod.mk.inj heq
    obtain rfl := Vocabulary.eq_of_name_eq (Vocabulary.of_firstMatch hmatch).1 (List.mem_of_getElem? (i := 13) rfl) hname
    exact ⟨c, hmatch, hfields⟩
  obtain ⟨hline, hcreations⟩ := readLine_of_match (w := w) htrim hkept hmatch hread
  rw [hcreations] at hroom
  have hvalid : (Formula.leaf (.truth true)).Valid := trivial
  have hattach : AttachesAs "if True:".length "True" (Formula.leaf (.truth true)).arrangement :=
    attachesAs_of_reads (Formula.reads_regroup hvalid) trivial rfl (by decide)
  have hget : vocabulary.get controlsIf.name = .ok controlsIf := rfl
  have htake : takeArguments (controlsIf.template.valueSlots.map Prod.fst)
      (fields [("IF0", "True")]) = ([("IF0", "True")], ∅) := rfl
  obtain ⟨p, x, w', hconstruct, hfind, hholds⟩ := construct_argument hget rfl htake
    (fun _ => rfl) hattach rfl hw hroom
  refine ⟨p, w', ?_, _, hfind, rfl, ?_, rfl, rfl, ?_⟩
  · rw [hline, hconstruct]
  · intro e he
    obtain rfl : e = (some (.leaf (.truth true)), 0) := by simpa using he
    exact Arrangement.of_since hholds
  · intro e he hoccupant
    have hentries : e ∈ [("IF0", Slot.value (some .boolean) (some x)), ("DO0", .statement none)] := he
    rcases List.mem_cons.1 hentries with rfl | hentries
    · exact ⟨0, Nat.zero_lt_one, rfl⟩
    · rw [List.mem_singleton.1 hentries] at hoccupant
      exact absurd rfl hoccupant

/-! ### The document -/

/-- Whatever commands have made the workspaces, a conditional in one of them without a first
condition and with empty bodies is written as its lines. The text is read in the other as one
conditional and nothing else if and only if each further condition is empty, a constant or a name
other than `if`. -/
theorem readDocument_writtenConditional_iff (source target : List Command) {p : BlockId}
    {further : List (Option Formula)} {hasElse : Bool}
    (hsource : (∅ : Workspace).creations source < wordLimit)
    (htarget : (∅ : Workspace).creations (target ++
      [.readDocument {} vocabulary (conditionalText none further hasElse)]) < wordLimit)
    (hnames : ((∅ : Workspace).run source).variableNames = ∅)
    (h : ((∅ : Workspace).run source).IsConditional p none further hasElse)
    (hloud : isSuppressed vocabulary ((∅ : Workspace).run source) p = false)
    (hfurther : ∀ f, some f ∈ further →
      f.Valid ∧ f.KeyFree ∧ Capability.compatible (some .boolean) f.output = true) :
    ((∅ : Workspace).run source).write vocabulary {} p =
        .ok (conditionalText none further hasElse) ∧
      ((∃ p' unmatched w', ((∅ : Workspace).run target).readDocument {} vocabulary
            (conditionalText none further hasElse) =
          ({ blocks := [p'], unmatched, failures := [], unlinked := 0 }, w') ∧
        ((∅ : Workspace).run target).OnlyAdds w' [p'] ∧
          w'.IsConditional p' (some (.leaf (.truth true))) [] false) ↔
        ∀ condition ∈ further, IsQuiet condition) := by
  obtain ⟨hw, -⟩ := consistent_run consistent_empty source (room_empty hsource)
  obtain ⟨hw', hroom⟩ := ready_of_creations htarget
  have hvalid : ∀ condition ∈ further, ∀ f, condition = some f →
      f.Valid ∧ Capability.compatible (some .boolean) f.output = true := by
    rintro _ hcondition f rfl
    obtain ⟨hvalid, -, houtput⟩ := hfurther f hcondition
    exact ⟨hvalid, houtput⟩
  have hlines : (Text.documentLines (conditionalText none further hasElse).toList).map .ofList =
      "if True:" :: ((conditionalLines none further hasElse).tail ++ [[]]).map String.ofList :=
    documentLines_conditionalText fun condition hcondition f hf =>
      (hvalid condition hcondition f hf).1
  refine ⟨?_, ?_, fun hquiet => ?_⟩
  · rw [write, Workspace.render, renderWithin_conditional h hloud]
    · rfl
    · intro x f hf hx
      have hf : some f ∈ further := (List.mem_cons.1 hf).resolve_left
        (Option.some_ne_none f)
      obtain ⟨hvalid, hkeys, -⟩ := hfurther f hf
      refine ⟨?_, Formula.code_ne_empty hvalid⟩
      exact renderWithin_holds hx hvalid hkeys hnames (hw.height_le_size hx)
  · rintro ⟨p', unmatched, w', hread, -, -⟩
    have hfirst : ¬ ({} : ReadingOptions).IsSilent vocabulary "if True:" := by
      rintro (hignored | hnone)
      · exact absurd hignored (by decide +kernel)
      · exact absurd hnone (by decide +kernel)
    have hsilent := isSilent_of_readDocument hw' hroom hlines hfirst
      (by rw [hread]) (by rw [hread])
    exact (isSilent_conditionalLines_iff hvalid).1 hsilent
  · have hline : ((∅ : Workspace).run target).Room
        (readLineCreations {} vocabulary ((∅ : Workspace).run target) "if True:") := by
      change Room _ (readDocumentCreations _ _ _ _) at hroom
      rw [readDocumentCreations, hlines, readLinesCreations] at hroom
      exact hroom.left
    obtain ⟨p', w', hread, hconditional⟩ := readLine_if hw' hline
    obtain ⟨unmatched, hdocument⟩ := readDocument_of_silent hlines hread
      ((isSilent_conditionalLines_iff hvalid).2 hquiet)
    have hplants := (readDocument_spec hw' _ hroom).1
    rw [hdocument] at hplants
    exact ⟨p', unmatched, w', hdocument, hplants.onlyAdds hw', hconditional⟩

/-- A conditional with a name, an empty condition and an arm without one, beneath an entry point. -/
theorem readDocument_writtenConditional_of_name :
    let source : List Command :=
      [.create vocabulary "forever" ∅, .create vocabulary "controls_if" ∅,
        .connectStatement 1 "DO" 2, .addElseIf 2, .addElseIf 2, .addElse 2,
        .create vocabulary "variables_get" (fields [("VAR", "x")]), .connectValue 2 "IF1" 3]
    let further : List (Option Formula) := [some (.leaf (.name "x")), none]
    ((∅ : Workspace).run source).write vocabulary {} 2 = .ok (conditionalText none further true) ∧
      ((∃ p' unmatched w', ((∅ : Workspace).run []).readDocument {} vocabulary
            (conditionalText none further true) =
          ({ blocks := [p'], unmatched, failures := [], unlinked := 0 }, w') ∧
        ((∅ : Workspace).run []).OnlyAdds w' [p'] ∧
          w'.IsConditional p' (some (.leaf (.truth true))) [] false) ↔
        ∀ condition ∈ further, IsQuiet condition) := by
  intro source further
  have hname : (Formula.leaf (.name "x")).Valid :=
    ⟨⟨'x', [], rfl, by decide, nofun⟩, by decide, by decide⟩
  have htarget : (∅ : Workspace).creations
      ([] ++ [.readDocument {} vocabulary (conditionalText none further true)]) < wordLimit :=
    creations_readDocument_lt takesAtMost_vocabulary Nat.two_pos (by decide)
  refine readDocument_writtenConditional_iff source [] (by decide) htarget rfl (by decide +kernel)
    (by decide +kernel) ?_
  intro f hf
  obtain rfl : f = .leaf (.name "x") := by simpa [further] using hf
  exact ⟨hname, rfl, rfl⟩

/-- A comparison in a further condition becomes a block of its own. -/
theorem comparison_header_read :
    let source : List Command :=
      [.create vocabulary "forever" ∅, .create vocabulary "controls_if" ∅,
        .connectStatement 1 "DO" 2, .addElseIf 2, .addElse 2,
        .create vocabulary "logic_compare" (fields [("OP", "LT")]), .connectValue 2 "IF1" 3,
        .create vocabulary "variables_get" (fields [("VAR", "x")]), .connectValue 3 "A" 4,
        .create vocabulary "math_number" (fields [("NUM", .int 3)]), .connectValue 3 "B" 5]
    let text := "if True:\n    pass\nelif x < 3:\n    pass\nelse:\n    pass\n"
    ((∅ : Workspace).run source).write vocabulary {} 2 = .ok text ∧
      let (outcome, w) := (∅ : Workspace).readDocument {} vocabulary text
      outcome.blocks.map (fun id => (w.find? id).map Block.form) =
        [some "controls_if", some "logic_compare"] := by
  decide +kernel

end Workspace

end ScriptBlocks
