import ScriptBlocks.Proofs.Text.Line
import ScriptBlocks.Proofs.Text.Placement

/-!
# Laying a body out twice

A body is ended and indented, and has no carriage returns, so laying it out once more changes
nothing. Only the placeholder is put in as it is: with a carriage return in it, it would come out
changed.

Whether a body is indented already is told by its first line that is not blank. So it does not
matter how the last line ends.

## Main statements

* `Layout.startsIndented_endLine` — ending the last line does not change how a text starts
* `Layout.laidOut_blockChars` — a body that is not blank is laid out
* `Layout.blockChars_blockChars` — a body is laid out once and for all
* `Layout.indentation_laws` — the laws of indentation and of bodies
-/

namespace ScriptBlocks.Layout

open Text

variable {indent l placeholder s : List Char}

/-! ### How a text starts -/

/-- A blank line at the front does not count, and any other line counts by itself. -/
theorem startsIndented_line (hl : '\n' ∉ l) (t : List Char) :
    startsIndented (l ++ '\n' :: t) = if isBlank l then startsIndented t else startsIndented l := by
  have hfeed : isBlank (l ++ ['\n']) = isBlank l := by
    rw [isBlank_append]
    exact Bool.and_true _
  rw [startsIndented, pieces_line hl, List.find?_cons, hfeed]
  cases hblank : isBlank l with
  | true => rfl
  | false =>
    cases l with
    | nil => exact absurd hblank (by decide)
    | cons c l =>
      rw [if_neg Bool.false_ne_true, startsIndented, pieces_of_not_mem hl (List.cons_ne_nil c l),
        List.find?_cons, hblank]
      rfl

theorem startsIndented_concat (hs : isBlank s = false) :
    startsIndented (s ++ ['\n']) = startsIndented s := by
  have hcut := cut_pieces s
  rw [← flatten_pieces s] at hs ⊢
  generalize pieces s = ps at hs hcut ⊢
  induction hcut with
  | nil => exact absurd hs (by decide)
  | @last l hne hl =>
    rw [List.flatten_singleton] at hs ⊢
    rw [startsIndented_line hl, if_neg (hs ▸ Bool.false_ne_true)]
  | @cons l ps hl h ih =>
    have hline (t : List Char) : l ++ ['\n'] ++ t = l ++ '\n' :: t := (List.append_cons l _ t).symm
    rw [List.flatten_cons, List.append_assoc, hline, hline, startsIndented_line hl,
      startsIndented_line hl]
    cases hblank : isBlank l with
    | false => rfl
    | true =>
      rw [List.flatten_cons, isBlank_append, isBlank_append, hblank] at hs
      exact ih hs

theorem startsIndented_endLine (hs : isBlank s = false) :
    startsIndented (endLine s) = startsIndented s := by
  rw [endLine]
  split
  · rfl
  · exact startsIndented_concat hs

theorem isBlank_endLine (s : List Char) : isBlank (endLine s) = isBlank s := by
  rw [endLine]
  split
  · rfl
  · rw [isBlank_append]
    exact Bool.and_true _

/-- A carriage return is white space. -/
theorem isBlank_filter_return (s : List Char) : isBlank (s.filter (· ≠ '\r')) = isBlank s := by
  rw [isBlank, isBlank, List.all_filter]
  congr 1
  funext c
  by_cases hc : c = '\r'
  · subst hc
    rfl
  · simp [hc]

/-! ### Bodies -/

theorem laidOut_endLine (hs : isBlank s = false) (hreturn : '\r' ∉ s)
    (hindented : indent = [] ∨ startsIndented s = true) : LaidOut indent (endLine s) where
  isBlank_eq := (isBlank_endLine s).trans hs
  carriageReturn := not_mem_endLine hreturn
  ended := getLast?_endLine s
  indented := hindented.imp_right (startsIndented_endLine hs).trans

/-- A body that is not blank is laid out. -/
theorem laidOut_blockChars (hindent : Indent indent) (hs : isBlank s = false)
    (placeholder : List Char) : LaidOut indent (blockChars indent placeholder s) := by
  have hreturn : '\r' ∉ s.filter (· ≠ '\r') := by
    intro h
    exact of_decide_eq_true (List.mem_filter.1 h).2 rfl
  have hcode : isBlank (s.filter (· ≠ '\r')) = false := (isBlank_filter_return s).trans hs
  rw [blockChars, if_neg (hs ▸ Bool.false_ne_true)]
  dsimp only
  split
  · next hstart => exact laidOut_endLine hcode hreturn (.inr hstart)
  · refine laidOut_endLine ((isBlank_indentChars hindent _).trans hcode) ?_ ?_
    · intro h
      exact (mem_indentChars h).elim hindent.carriageReturn hreturn
    · by_cases hne : indent = []
      · exact .inl hne
      · exact .inr (startsIndented_indentChars hindent hne hcode)

/-- A body is laid out once and for all. -/
theorem blockChars_blockChars (hindent : Indent indent) (hplaceholder : IsLine placeholder)
    (s : List Char) :
    blockChars indent placeholder (blockChars indent placeholder s) =
      blockChars indent placeholder s := by
  cases hs : isBlank s with
  | false => exact (laidOut_blockChars hindent hs placeholder).blockChars_eq placeholder
  | true =>
    have hbody : blockChars indent placeholder s = indent ++ placeholder ++ ['\n'] := by
      rw [blockChars, if_pos hs]
    rw [hbody]
    cases hblank : isBlank placeholder with
    | true =>
      have hline : isBlank (indent ++ placeholder ++ ['\n']) = true := by
        rw [isBlank_append, isBlank_append, hindent.isBlank, hblank]
        rfl
      rw [blockChars, if_pos hline]
    | false =>
      -- a placeholder that is not blank is an indented line
      have hline : isBlank (placeholder ++ ['\n']) = false := by
        rw [isBlank_append, hblank, Bool.false_and]
      have hindented : indentChars indent (placeholder ++ ['\n']) =
          indent ++ placeholder ++ ['\n'] := by
        rw [indentChars, pieces_line hplaceholder.1, pieces, List.map_singleton,
          List.flatten_singleton, indentPiece, hline, if_neg Bool.false_ne_true, List.append_assoc]
      rw [← hindented]
      refine (laidOut_indentChars hindent hline ?_ ?_).blockChars_eq placeholder
      · rw [List.getLast?_concat]
      · exact List.not_mem_append hplaceholder.2 (by decide)

/-! ### Texts -/

/-- Complete lines are indented apart from what follows them, and indents add up. A body is laid out
once and for all if its placeholder is part of one line. It is ended by a line feed, and a carriage
return in it comes from the placeholder, which stands for a body without any text. -/
theorem indentation_laws :
    (∀ s t indent : String, s = "" ∨ EndsLine s →
      indentLines (s ++ t) indent = indentLines s indent ++ indentLines t indent) ∧
    ∀ indent : String, Indent indent.toList →
      (∀ s outer : String,
        indentLines (indentLines s indent) outer = indentLines s (outer ++ indent)) ∧
      ∀ code placeholder : String,
        let body := block code indent placeholder
        (IsLine placeholder.toList → block body indent placeholder = body) ∧
        EndsLine body ∧
        ('\r' ∈ body.toList → isBlank code.toList = true ∧ '\r' ∈ placeholder.toList) := by
  refine ⟨fun s t indent hs => indentLines_append hs t indent, fun indent hindent => ?_⟩
  refine ⟨indentLines_indentLines hindent, fun code placeholder => ?_⟩
  intro body
  refine ⟨fun hplaceholder => ?_, endsLine_block code indent placeholder, fun h => ?_⟩
  · simp only [body, block, String.toList_ofList, blockChars_blockChars hindent hplaceholder]
  · simp only [body, block, String.toList_ofList] at h
    exact return_of_mem_blockChars hindent.carriageReturn h

/-- A body with a blank line, carriage returns and a last line that is not ended, and one without
any text. -/
theorem indentation_laws_of_mixed :
    EndsLine "a\n\n" ∧ Indent " \t".toList ∧ IsLine "pass".toList ∧
    indentLines ("a\n\n" ++ " b") " \t" = indentLines "a\n\n" " \t" ++ indentLines " b" " \t" ∧
    indentLines (indentLines "a\n\n b" " \t") "  " = indentLines "a\n\n b" "   \t" ∧
    block "\r\n\ta()\rb()" " \t" "pass" = "\n\ta()b()\n" ∧
    block "a()\r\n\r\n b()" " \t" "pass" = " \ta()\n\n \t b()\n" ∧
    block " \ta()\n\n \t b()\n" " \t" "pass" = " \ta()\n\n \t b()\n" ∧
    block "\r\n " " \t" "pass" = " \tpass\n" ∧ block " \tpass\n" " \t" "pass" = " \tpass\n" := by
  have hends : EndsLine "a\n\n" := by rfl
  have hindent : Indent " \t".toList := ⟨by decide, by decide, by decide⟩
  have hline : IsLine "pass".toList := by decide
  obtain ⟨happend, hlaws⟩ := indentation_laws
  obtain ⟨hcompose, hbody⟩ := hlaws " \t" hindent
  have htext : block "a()\r\n\r\n b()" " \t" "pass" = " \ta()\n\n \t b()\n" := by decide
  have hempty : block "\r\n " " \t" "pass" = " \tpass\n" := by decide
  have htwice := (hbody "a()\r\n\r\n b()" "pass").1 hline
  have htwice' := (hbody "\r\n " "pass").1 hline
  rw [htext] at htwice
  rw [hempty] at htwice'
  exact ⟨hends, hindent, hline, happend _ _ _ (.inr hends), hcompose _ _, by decide, htext, htwice,
    hempty, htwice'⟩

end ScriptBlocks.Layout
