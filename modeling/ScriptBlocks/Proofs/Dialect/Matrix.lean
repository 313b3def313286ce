import ScriptBlocks.Proofs.Dialect.Picture
import ScriptBlocks.Proofs.Dialect.Quotes

/-!
# Pictures as matrices of marks

The rows of a picture are taken from the lines of any text: five marks from each of the first five
lines, with dark lights where there are no more. Once a text is such a matrix its rows are found as they
are, and so they are when the marks are spaced out.

## Main definitions

* `Dialect.IsMatrixOf` — the rows of a picture, described by the lines of a text
* `Dialect.IsMatrix` — five rows of five marks

## Main statements

* `Dialect.isMatrixOf_matrixRows` — the rows are those of the description
* `Dialect.matrixRows_joinRows`, `Dialect.matrixRows_spaced` — a matrix is read as what it is
* `Dialect.picture?_matrixText` — the content of a picture that was written
-/

namespace ScriptBlocks

open Text

namespace Dialect

/-- A light of a picture, on or off. -/
def isMark (c : Char) : Bool := c = '#' || c = '.'

/-- Five rows of five marks. -/
def IsMatrix (rows : List (List Char)) : Prop :=
  rows.length = 5 ∧ ∀ row ∈ rows, row.length = 5 ∧ ∀ c ∈ row, c = '#' ∨ c = '.'

/-- Each row has the first five marks of the line with its number, and dots behind them. Carriage
returns do not count. -/
def IsMatrixOf (rows : List (List Char)) (text : List Char) : Prop :=
  rows.length = 5 ∧ ∀ i < 5,
    let marks := (((text.filter (· ≠ '\r')).splitOn '\n').getD i []).filter fun c => c = '#' || c = '.'
    rows[i]? = some (marks.take 5 ++ .replicate (5 - marks.length) '.')

variable {s rest : List Char} {rows lines : List (List Char)} {row : List Char}

/-! ### Rows -/

/-- Without carriage returns, the lines are what line feeds separate. -/
theorem documentLines_eq_splitOn (hs : '\r' ∉ s) : documentLines s = s.splitOn '\n' := by
  induction s with
  | nil => rfl
  | cons c s ih =>
    rw [List.mem_cons, not_or] at hs
    have hlines := ih hs.2
    have hcons (l : List (List Char)) (hl : l ≠ []) : consLine c l = l.modifyHead (c :: ·) := by
      cases l with
      | nil => exact absurd rfl hl
      | cons => rfl
    rw [List.splitOn, List.splitOnP_cons_eq_if_modifyHead]
    by_cases hc : c = '\n'
    · subst hc
      rw [documentLines, if_pos (by decide), hlines]
      rfl
    · rw [documentLines, hcons _ (documentLines_ne_nil s), hlines, if_neg (by simpa using hc)]
      · rfl
      · exact fun _ h _ => hs.1 h.symm
      · exact fun h => hs.1 h.symm
      · exact hc

theorem matrixRow_eq (line : List Char) :
    matrixRow line = (line.filter isMark).take 5 ++
      .replicate (5 - (line.filter isMark).length) '.' := by
  change ((line.filter isMark).take 5).rightpad 5 '.' = _
  rw [List.rightpad, List.length_take]
  congr 2
  omega

/-- Of lines that are missing the rows are dark. -/
theorem getElem?_matrixRows {i : Nat} (hi : i < 5) (text : List Char) :
    (matrixRows text)[i]? =
      some (matrixRow (((text.filter (· ≠ '\r')).splitOn '\n').getD i [])) := by
  have hreturn : '\r' ∉ text.filter (· ≠ '\r') := by simp
  rw [matrixRows, documentLines_eq_splitOn hreturn, List.getElem?_map]
  generalize (text.filter (· ≠ '\r')).splitOn '\n' = lines
  have hline : ((lines.take 5).rightpad 5 [])[i]? = some (lines.getD i []) := by
    rw [List.rightpad, List.getElem?_append, List.length_take, List.getD_eq_getElem?_getD]
    split
    · next h =>
      rw [List.getElem?_take_of_lt hi]
      have hlt : i < lines.length := by omega
      rw [List.getElem?_eq_getElem hlt]
      rfl
    · next h =>
      have hle : lines.length ≤ i := by omega
      rw [List.getElem?_eq_none hle, List.getElem?_replicate_of_lt (by omega)]
      rfl
  rw [hline]
  rfl

theorem length_matrixRows (text : List Char) : (matrixRows text).length = 5 := by
  rw [matrixRows, List.length_map, List.length_rightpad, List.length_take]
  omega

theorem isMatrixOf_matrixRows (text : List Char) : IsMatrixOf (matrixRows text) text :=
  ⟨length_matrixRows text, fun _ hi => by
    rw [getElem?_matrixRows hi, matrixRow_eq]
    rfl⟩

theorem isMatrix_matrixRows (text : List Char) : IsMatrix (matrixRows text) := by
  refine ⟨length_matrixRows text, fun row hrow => ?_⟩
  obtain ⟨line, -, rfl⟩ := List.mem_map.1 hrow
  constructor
  · rw [matrixRow_eq, List.length_append, List.length_take, List.length_replicate]
    omega
  · intro c hc
    rw [matrixRow_eq] at hc
    rcases List.mem_append.1 hc with hc | hc
    · have hmark := (List.mem_filter.1 (List.mem_of_mem_take hc)).2
      simpa [isMark] using hmark
    · exact .inr (List.eq_of_mem_replicate hc)

/-- The rows of a text of at least five lines are those of the first five. -/
theorem matrixRows_intercalate (hlines : ∀ l ∈ lines, IsLine l) (hlength : 5 ≤ lines.length) :
    matrixRows (['\n'].intercalate lines) = (lines.take 5).map matrixRow := by
  have hfilter : (['\n'].intercalate lines).filter (· ≠ '\r') = ['\n'].intercalate lines := by
    refine filter_intercalate fun l hl c hc => decide_eq_true ?_
    rintro rfl
    exact (hlines l hl).2 hc
  have hreturn : '\r' ∉ ['\n'].intercalate lines := by
    rw [← hfilter]
    simp
  have hne : lines ≠ [] := List.ne_nil_of_length_pos (by omega)
  rw [matrixRows, hfilter, documentLines_eq_splitOn hreturn,
    List.splitOn_intercalate '\n' (fun l hl => (hlines l hl).1) hne, List.rightpad,
    List.length_take_of_le hlength]
  simp

/-- Marks that are spaced out are found again. -/
theorem matrixRow_intersperse (hlength : row.length = 5) (hmarks : ∀ c ∈ row, c = '#' ∨ c = '.') :
    matrixRow (row.intersperse ' ') = row := by
  have hspaced : (row.intersperse ' ').filter isMark = row := by
    clear hlength
    induction row with
    | nil => rfl
    | cons c row ih =>
      obtain ⟨hc, hrow⟩ := List.forall_mem_cons.1 hmarks
      have hmark : isMark c = true := by simpa [isMark] using hc
      cases row with
      | nil => exact List.filter_cons_of_pos hmark
      | cons d row =>
        rw [List.intersperse_cons_cons, List.filter_cons_of_pos hmark,
          List.filter_cons_of_neg (by decide), ih hrow]
  rw [matrixRow_eq, hspaced, hlength, List.take_of_length_le (Nat.le_of_eq hlength)]
  simp

theorem matrixRow_self (hlength : row.length = 5) (hmarks : ∀ c ∈ row, c = '#' ∨ c = '.') :
    matrixRow row = row := by
  have hall : row.filter isMark = row :=
    List.filter_eq_self.2 fun c hc => by simpa [isMark] using hmarks c hc
  rw [matrixRow_eq, hall, hlength, List.take_of_length_le (Nat.le_of_eq hlength)]
  simp

theorem mem_of_mem_intersperse {α : Type} {a sep : α} {l : List α} (h : a ∈ l.intersperse sep) :
    a ∈ l ∨ a = sep := by
  induction l with
  | nil => exact .inl h
  | cons b l ih =>
    cases l with
    | nil => exact .inl h
    | cons b' l =>
      rw [List.intersperse_cons_cons] at h
      rcases List.mem_cons.1 h with rfl | h
      · exact .inl List.mem_cons_self
      rcases List.mem_cons.1 h with rfl | h
      · exact .inr rfl
      · exact (ih h).imp_left (List.mem_cons_of_mem b)

theorem intercalate_concat_nil {sep : List Char} (hne : lines ≠ []) :
    sep.intercalate (lines ++ [[]]) = sep.intercalate lines ++ sep := by
  induction lines with
  | nil => exact absurd rfl hne
  | cons l lines ih =>
    cases lines with
    | nil => simp
    | cons l' lines =>
      have htail := ih (List.cons_ne_nil l' lines)
      simp only [List.cons_append, List.intercalate_cons_cons, List.append_assoc] at htail ⊢
      rw [htail]

/-- The line that is written for a row is one line, without quotes. -/
theorem isLine_spaced (hmarks : ∀ c ∈ row, c = '#' ∨ c = '.') :
    IsLine (row.intersperse ' ') ∧ ∀ c ∈ row.intersperse ' ', c ≠ '"' ∧ c ≠ '\'' := by
  have hmem {c : Char} (hc : c ∈ row.intersperse ' ') : c ∈ ['#', '.', ' '] := by
    rcases mem_of_mem_intersperse hc with hc | rfl
    · rcases hmarks c hc with rfl | rfl <;> decide
    · decide
  refine ⟨⟨fun h => absurd (hmem h) (by decide), fun h => absurd (hmem h) (by decide)⟩,
    fun c hc => ?_⟩
  have hall : ∀ c ∈ ['#', '.', ' '], c ≠ '"' ∧ c ≠ '\'' := by decide
  exact hall c (hmem hc)

theorem isLine_of_isMark (hmarks : ∀ c ∈ row, c = '#' ∨ c = '.') : IsLine row :=
  ⟨fun h => absurd (hmarks _ h) (by decide), fun h => absurd (hmarks _ h) (by decide)⟩

/-- The rows of a matrix are found in the text of its field. -/
theorem matrixRows_joinRows (h : IsMatrix rows) :
    matrixRows (joinRows "\n" rows).toList = rows := by
  obtain ⟨hlength, hrows⟩ := h
  rw [toList_joinRows, matrixRows_intercalate (fun row hrow => isLine_of_isMark (hrows row hrow).2)
    (Nat.le_of_eq hlength.symm), List.take_of_length_le (Nat.le_of_eq hlength)]
  conv_rhs => rw [← List.map_id rows]
  exact List.map_congr_left fun row hrow => matrixRow_self (hrows row hrow).1 (hrows row hrow).2

/-- They are found as well in the lines that are written for it. -/
theorem matrixRows_spaced (h : IsMatrix rows) :
    matrixRows ((joinRows "\n" (rows.map (·.intersperse ' '))).toList ++ ['\n']) = rows := by
  obtain ⟨hlength, hrows⟩ := h
  have hne : rows.map (·.intersperse ' ') ≠ [] :=
    List.ne_nil_of_length_pos (by rw [List.length_map, hlength]; decide)
  have hlines : ∀ l ∈ rows.map (·.intersperse ' ') ++ [[]], IsLine l := by
    intro l hl
    rcases List.mem_append.1 hl with hl | hl
    · obtain ⟨row, hrow, rfl⟩ := List.mem_map.1 hl
      exact (isLine_spaced (hrows row hrow).2).1
    · rw [List.mem_singleton.1 hl]
      decide
  have hfive : (rows.map (·.intersperse ' ')).length = 5 := by rw [List.length_map, hlength]
  rw [toList_joinRows, ← intercalate_concat_nil hne, matrixRows_intercalate hlines
    (by rw [List.length_append, hfive]; decide), List.take_append_of_le_length
    (Nat.le_of_eq hfive.symm), List.take_of_length_le (Nat.le_of_eq hfive), List.map_map]
  conv_rhs => rw [← List.map_id rows]
  exact List.map_congr_left fun row hrow =>
    matrixRow_intersperse (hrows row hrow).1 (hrows row hrow).2

theorem joinRows_inj {rows' : List (List Char)} (h : IsMatrix rows) (h' : IsMatrix rows') :
    joinRows "\n" rows = joinRows "\n" rows' ↔ rows = rows' := by
  refine ⟨fun heq => ?_, congrArg _⟩
  rw [← matrixRows_joinRows h, heq, matrixRows_joinRows h']

/-! ### The text of a picture -/

/-- What is written for a picture with these rows. -/
def matrixText (rows : List (List Char)) : String :=
  "basic.show_leds(\"\"\"\n" ++ joinRows "\n" (rows.map (·.intersperse ' ')) ++ "\n\"\"\")\n"

theorem toList_matrixText (rows : List (List Char)) : (matrixText rows).toList =
    "basic.show_leds(".toList ++ ("\"\"\"".toList ++
      ('\n' :: ((joinRows "\n" (rows.map (·.intersperse ' '))).toList ++ ['\n']) ++
        ("\"\"\"".toList ++ ")\n".toList))) := by
  have hfront : "basic.show_leds(\"\"\"\n".toList =
      "basic.show_leds(".toList ++ ("\"\"\"".toList ++ ['\n']) := by decide
  have hback : "\n\"\"\")\n".toList = ['\n'] ++ ("\"\"\"".toList ++ ")\n".toList) := by decide
  -- the literals on the right are not to be taken for texts that are put together
  have happend (a b c : String) : (a ++ b ++ c).toList = a.toList ++ (b.toList ++ c.toList) := by
    rw [String.toList_append, String.toList_append, List.append_assoc]
  refine (happend _ _ _).trans ?_
  rw [hfront, hback]
  simp only [List.append_assoc, List.cons_append, List.nil_append]

/-- The content of a picture that was written are its lines, each ended by a line feed, and a line feed
in front of them. -/
theorem picture?_matrixText (h : IsMatrix rows) : picture? (matrixText rows).toList =
    some ('\n' :: ((joinRows "\n" (rows.map (·.intersperse ' '))).toList ++ ['\n'])) := by
  generalize hcode : (joinRows "\n" (rows.map (·.intersperse ' '))).toList = code
  have hquotes : ∀ c ∈ '\n' :: (code ++ ['\n']), c ≠ '"' ∧ c ≠ '\'' := by
    have hfeed : '\n' ≠ '"' ∧ '\n' ≠ '\'' := by decide
    refine List.forall_mem_cons.2 ⟨hfeed, List.forall_mem_append.2 ⟨fun c hc => ?_, ?_⟩⟩
    · rw [← hcode, toList_joinRows, List.intercalate, List.mem_flatten] at hc
      obtain ⟨l, hl, hc⟩ := hc
      rcases mem_of_mem_intersperse hl with hl | rfl
      · obtain ⟨row, hrow, rfl⟩ := List.mem_map.1 hl
        exact (isLine_spaced (h.2 row hrow).2).2 c hc
      · rw [List.mem_singleton.1 hc]
        exact hfeed
    · exact List.forall_mem_singleton.2 hfeed
  have hend : closes ("\"\"\"".toList ++ ")\n".toList) = true := by
    rw [closes, afterQuotes?_eq_some_iff.2 ⟨_, .inl rfl, rfl⟩]
    decide
  refine picture?_of_opened? ?_ (shortest_closes_append hquotes hend)
  have hquote : isWhite '"' = false := by decide
  have hstart (t : List Char) : ("\"\"\"".toList ++ t).dropWhile isWhite = "\"\"\"".toList ++ t := by
    simp [hquote]
  rw [toList_matrixText, hcode, opened?, dropPrefix?_eq_some_iff.2 rfl, Option.bind_some, hstart]
  exact afterQuotes?_eq_some_iff.2 ⟨_, .inl rfl, rfl⟩

end Dialect

end ScriptBlocks
