import ScriptBlocks.Proofs.Dialect.Matrix
import ScriptBlocks.Proofs.Run

/-!
# Reading a picture

A picture is read whatever stands between its quotes, and the block that is made has the rows that the
content has. A line feed at the start of the content does not count, and carriage returns count nowhere.
But a carriage return in front of that line feed keeps it from being the start, so that with line ends
of two characters the rows come one too low.

## Main definitions

* `Text.withReturns` — a carriage return in front of each line feed
* `Workspace.HasMatrix` — a block is a picture with this matrix

## Main statements

* `Workspace.readAs_of_picture?` — the block that is read off a picture
* `Dialect.picture?_withReturns` — the picture of a text does not depend on its line ends
* `Workspace.readAs_withReturns` — what becomes of the rows
-/

namespace ScriptBlocks

open Text

/-- The text with a carriage return in front of each line feed. -/
def Text.withReturns (s : List Char) : List Char :=
  s.flatMap fun c => if c = '\n' then ['\r', '\n'] else [c]

variable {s t : List Char}

namespace Text

@[simp] theorem withReturns_cons_of_ne {c : Char} (hc : c ≠ '\n') (s : List Char) :
    withReturns (c :: s) = c :: withReturns s := by
  simp [withReturns, hc]

@[simp] theorem withReturns_lineFeed (s : List Char) :
    withReturns ('\n' :: s) = '\r' :: '\n' :: withReturns s := rfl

/-- No other character comes to the front. -/
theorem head?_withReturns {c : Char} (hc : c ≠ '\r') (hc' : c ≠ '\n') (s : List Char) :
    (withReturns s).head? = some c ↔ s.head? = some c := by
  cases s with
  | nil => exact Iff.rfl
  | cons d s =>
    by_cases hd : d = '\n'
    · subst hd
      rw [withReturns_lineFeed, List.head?_cons, List.head?_cons, Option.some_inj, Option.some_inj]
      exact iff_of_false hc.symm hc'.symm
    · rw [withReturns_cons_of_ne hd, List.head?_cons, List.head?_cons]

theorem filter_withReturns (s : List Char) :
    (withReturns s).filter (· ≠ '\r') = s.filter (· ≠ '\r') := by
  induction s with
  | nil => rfl
  | cons c s ih =>
    by_cases hc : c = '\n'
    · subst hc
      rw [withReturns_lineFeed, List.filter_cons_of_neg (by decide),
        List.filter_cons_of_pos (by decide), List.filter_cons_of_pos (by decide), ih]
    · rw [withReturns_cons_of_ne hc, List.filter_cons, List.filter_cons, ih]

theorem dropWhile_withReturns (s : List Char) :
    (withReturns s).dropWhile isWhite = withReturns (s.dropWhile isWhite) := by
  induction s with
  | nil => rfl
  | cons c s ih =>
    by_cases hc : c = '\n'
    · subst hc
      rw [withReturns_lineFeed, List.dropWhile_cons_of_pos (by decide),
        List.dropWhile_cons_of_pos (by decide), List.dropWhile_cons_of_pos (by decide), ih]
    · by_cases hwhite : isWhite c = true
      · rw [withReturns_cons_of_ne hc, List.dropWhile_cons_of_pos hwhite,
          List.dropWhile_cons_of_pos hwhite, ih]
      · rw [List.dropWhile_cons_of_neg hwhite, withReturns_cons_of_ne hc,
          List.dropWhile_cons_of_neg hwhite]

/-- A word within a line is found as before. -/
theorem dropPrefix?_withReturns {w : List Char} (hw : ∀ c ∈ w, c ≠ '\r' ∧ c ≠ '\n') (s : List Char) :
    (withReturns s).dropPrefix? w = (s.dropPrefix? w).map withReturns := by
  induction w generalizing s with
  | nil => simp
  | cons d w ih =>
    obtain ⟨⟨hreturn, hfeed⟩, hw⟩ := List.forall_mem_cons.1 hw
    cases s with
    | nil => rfl
    | cons c s =>
      by_cases hc : c = '\n'
      · subst hc
        rw [withReturns_lineFeed]
        simp [List.dropPrefix?, hreturn.symm, hfeed.symm]
      · rw [withReturns_cons_of_ne hc]
        simp only [List.dropPrefix?]
        split
        · exact ih hw s
        · rfl

end Text

namespace Dialect

/-! ### The picture of a text with other line ends -/

theorem afterQuotes?_withReturns (s : List Char) :
    afterQuotes? (withReturns s) = (afterQuotes? s).map withReturns := by
  rw [afterQuotes?, afterQuotes?, dropPrefix?_withReturns (by decide),
    dropPrefix?_withReturns (by decide), Option.map_or]

theorem closes_withReturns (s : List Char) : closes (withReturns s) = closes s := by
  rw [closes, closes, afterQuotes?_withReturns, Option.any_map]
  refine congrArg (Option.any · _) (funext fun t => ?_)
  rw [dropWhile_withReturns]
  exact decide_eq_decide.2 (head?_withReturns (by decide) (by decide) _)

theorem opened?_withReturns (s : List Char) :
    opened? (withReturns s) = (opened? s).map withReturns := by
  rw [opened?, opened?, dropPrefix?_withReturns (by decide), Option.bind_map, Option.map_bind]
  refine congrArg (Option.bind _) (funext fun t => ?_)
  rw [Function.comp_apply, Function.comp_apply, dropWhile_withReturns, afterQuotes?_withReturns]

theorem opened?_cons_of_ne {c : Char} (hc : c ≠ 'b') : opened? (c :: s) = none := by
  have hword : "basic.show_leds(".toList = 'b' :: "asic.show_leds(".toList := by decide
  rw [opened?, hword, List.dropPrefix?, if_neg (by simpa using hc), Option.bind_none]

/-- A carriage return that is put in never ends a picture, and neither does the line feed behind it. -/
theorem shortest_withReturns (s : List Char) :
    Pattern.shortest closes (withReturns s) = (Pattern.shortest closes s).map withReturns := by
  induction s with
  | nil => rfl
  | cons c s ih =>
    by_cases hc : c = '\n'
    · subst hc
      have hreturn (t : List Char) : closes ('\r' :: t) = false := closes_cons_of_ne (by decide)
      have hfeed (t : List Char) : closes ('\n' :: t) = false := closes_cons_of_ne (by decide)
      rw [withReturns_lineFeed]
      simp only [Pattern.shortest, hreturn, hfeed, Bool.false_eq_true, if_false, ih, Option.map_map]
      rfl
    · rw [Pattern.shortest, ← closes_withReturns, withReturns_cons_of_ne hc, Pattern.shortest, ih]
      split
      · rfl
      · rw [Option.map_map, Option.map_map]
        refine congrArg (Option.map · _) (funext fun u => ?_)
        exact (withReturns_cons_of_ne hc u).symm

/-- The first picture of a text is still the first one. -/
theorem picture?_withReturns (s : List Char) :
    picture? (withReturns s) = (picture? s).map withReturns := by
  induction s with
  | nil => rfl
  | cons c s ih =>
    by_cases hc : c = '\n'
    · subst hc
      rw [withReturns_lineFeed, picture?, picture?, picture?, opened?_cons_of_ne (by decide),
        opened?_cons_of_ne (by decide), opened?_cons_of_ne (by decide), ih]
      rfl
    · have hopened := opened?_withReturns (c :: s)
      rw [withReturns_cons_of_ne hc] at hopened ⊢
      rw [picture?, picture?, hopened, ih, Option.map_or, Option.bind_map, Option.map_bind]
      refine congrArg (fun f => ((opened? (c :: s)).bind f).or _) (funext fun t => ?_)
      exact shortest_withReturns t

/-! ### Its rows -/

/-- Rows are the same with any line ends. -/
theorem matrixRows_withReturns (s : List Char) : matrixRows (withReturns s) = matrixRows s := by
  rw [matrixRows, matrixRows, filter_withReturns]

/-- But no line feed at the start is left out. -/
theorem afterLineFeed_withReturns (s : List Char) : afterLineFeed (withReturns s) = withReturns s := by
  cases s with
  | nil => rfl
  | cons c s =>
    by_cases hc : c = '\n'
    · subst hc
      rfl
    · rw [withReturns_cons_of_ne hc, afterLineFeed]
      exact fun _ h => hc (List.cons.inj h).1

/-- A row of lights that are off. -/
def darkRow : List Char := .replicate 5 '.'

/-- With the line feed at its start a text has a dark row in front of the others. -/
theorem matrixRows_lineFeed (s : List Char) :
    matrixRows ('\n' :: s) = darkRow :: (matrixRows s).take 4 := by
  have hpad (lines : List (List Char)) : (([] :: lines).take 5).rightpad 5 [] =
      [] :: ((lines.take 5).rightpad 5 []).take 4 := by
    simp only [List.rightpad, List.take_append, List.take_take, List.take_replicate,
      List.take_succ_cons, List.length_cons, List.length_take, List.cons_append]
    congr 3
    omega
  rw [matrixRows, List.filter_cons_of_pos (by decide), documentLines, matrixRows]
  simp only [hpad, List.map_cons, List.map_take]
  rfl

/-- The line feed that is left out of the text of a picture stood for a row. -/
theorem matrixRows_eq (s : List Char) : matrixRows s =
    if s.head? = some '\n' then darkRow :: (matrixRows (afterLineFeed s)).take 4
    else matrixRows (afterLineFeed s) := by
  cases s with
  | nil => rfl
  | cons c s =>
    rw [List.head?_cons]
    by_cases hc : c = '\n'
    · subst hc
      exact matrixRows_lineFeed s
    · rw [if_neg (mt Option.some.inj hc), afterLineFeed]
      exact fun _ h => hc (List.cons.inj h).1

/-- A row in front moves the others, and that changes nothing only where all of them are like it. -/
theorem cons_take_eq_iff {α : Type} {a : α} {l : List α} {n : Nat} (hl : l.length = n + 1) :
    a :: l.take n = l ↔ ∀ b ∈ l, b = a := by
  induction l generalizing a n with
  | nil => exact nomatch hl
  | cons b l ih =>
    rw [List.cons.injEq, List.forall_mem_cons, eq_comm (a := a)]
    refine and_congr_right fun hb => ?_
    subst hb
    cases n with
    | zero =>
      obtain rfl := List.length_eq_zero_iff.1 (Nat.succ.inj hl)
      simp
    | succ n => exact ih (Nat.succ.inj hl)

end Dialect

namespace Workspace

open Dialect

/-- The block is a picture, and this is the text of its matrix. -/
def HasMatrix (w : Workspace) (id : BlockId) (matrix : String) : Prop :=
  ∃ b, w.find? id = some b ∧ b.form = basicShowLeds.name ∧
    b.fields.find? "MATRIX" = some (.string matrix)

variable {text : String} {content : List Char}

/-- Off a picture a block is read in any workspace. -/
theorem readAs_of_picture? (w : Workspace) (h : picture? text.toList = some content) :
    ∃ id w', w.readAs vocabulary text basicShowLeds.name = (.ok (some id), w') ∧
      w'.HasMatrix id (joinRows "\n" (matrixRows (afterLineFeed content))) := by
  have hmatch := matchIn_basicShowLeds text.toList
  rw [String.ofList_toList, h, Option.map_some, Option.map_eq_some_iff] at hmatch
  obtain ⟨c, hmatch, hgroup⟩ := hmatch
  have hform : vocabulary.get basicShowLeds.name = .ok basicShowLeds := rfl
  have hread : basicShowLeds.readFields c =
      .ok (fields [("MATRIX", joinRows "\n" (matrixRows (afterLineFeed content)))]) := by
    rw [← String.toList_ofList (l := content), ← hgroup]
    rfl
  obtain ⟨hreadAs, -⟩ := readAs_of_match (w := w) hform hmatch hread
  obtain ⟨id, w', hcreate⟩ := exists_create w hform
    (fields [("MATRIX", joinRows "\n" (matrixRows (afterLineFeed content)))])
  refine ⟨id, w', ?_, ?_⟩
  · rw [hreadAs, construct]
    simp only [show basicShowLeds.construction = .bare from rfl, hcreate]
  · obtain ⟨f, hf, -, rfl⟩ := create_eq_ok.1 hcreate
    obtain rfl := Except.ok.inj (hform.symm.trans hf)
    refine ⟨_, (find?_addBlock ..).trans (if_pos rfl), rfl, ?_⟩
    exact OrderedMap.find?_insertMany_of_mem (fields _).nodup List.mem_cons_self

/-- A block is read off nothing else. -/
theorem exists_picture?_of_readAs {w w' : Workspace} {id : BlockId}
    (h : w.readAs vocabulary text basicShowLeds.name = (.ok (some id), w')) :
    ∃ content, picture? text.toList = some content := by
  have hmatch := matchIn_basicShowLeds text.toList
  have hform : vocabulary.get basicShowLeds.name = .ok basicShowLeds := rfl
  rw [String.ofList_toList] at hmatch
  cases hpicture : picture? text.toList with
  | some content => exact ⟨content, rfl⟩
  | none =>
    rw [hpicture, Option.map_none, Option.map_eq_none_iff] at hmatch
    simp only [readAs, hform, hmatch] at h
    cases h

theorem HasMatrix.iff_eq {w : Workspace} {id : BlockId} {matrix matrix' : String}
    (h : w.HasMatrix id matrix) : w.HasMatrix id matrix' ↔ matrix = matrix' := by
  constructor
  · rintro ⟨b', hb', -, hmatrix'⟩
    obtain ⟨b, hb, -, hmatrix⟩ := h
    obtain rfl := Option.some.inj (hb.symm.trans hb')
    exact Value.string.inj (Option.some.inj (hmatrix.symm.trans hmatrix'))
  · rintro rfl
    exact h

/-- A text off which a picture is read is read as a picture with a carriage return in front of each
line feed as well, and in any workspace. If a line feed follows the opening quotes, the rows are one
lower then: the first is dark and the last is lost. So the matrix is the same just when the content of
the quotes starts with something else or all lights are off. -/
theorem readAs_withReturns {w w₁ : Workspace} {id : BlockId}
    (h : w.readAs vocabulary text basicShowLeds.name = (.ok (some id), w₁)) (w' : Workspace) :
    ∃ c rows, basicShowLeds.matchIn text = some c ∧ IsMatrix rows ∧
      w₁.HasMatrix id (joinRows "\n" rows) ∧
      ∃ id' w₂, w'.readAs vocabulary (.ofList (withReturns text.toList)) basicShowLeds.name =
          (.ok (some id'), w₂) ∧
        w₂.HasMatrix id' (joinRows "\n" (if (c.group 1).toList.head? = some '\n'
          then darkRow :: rows.take 4 else rows)) ∧
        (w₂.HasMatrix id' (joinRows "\n" rows) ↔
          (c.group 1).toList.head? ≠ some '\n' ∨ ∀ row ∈ rows, row = darkRow) := by
  obtain ⟨content, hpicture⟩ := exists_picture?_of_readAs h
  obtain ⟨_, _, hread, hmatrix⟩ := readAs_of_picture? w hpicture
  obtain ⟨hid, rfl⟩ := Prod.mk.inj (hread.symm.trans h)
  obtain rfl := Option.some.inj (Except.ok.inj hid)
  have hmatch := matchIn_basicShowLeds text.toList
  rw [String.ofList_toList, hpicture, Option.map_some, Option.map_eq_some_iff] at hmatch
  obtain ⟨c, hmatch, hgroup⟩ := hmatch
  -- with the other line ends the content is the same up to its line ends, and it is taken as a whole
  have hpicture' : picture? (String.ofList (withReturns text.toList)).toList =
      some (withReturns content) := by
    rw [String.toList_ofList, picture?_withReturns, hpicture, Option.map_some]
  obtain ⟨id', w₂, hread', hmatrix'⟩ := readAs_of_picture? w' hpicture'
  rw [afterLineFeed_withReturns, matrixRows_withReturns] at hmatrix'
  have hmatrices := isMatrix_matrixRows (afterLineFeed content)
  have hiff := hmatrix'.iff_eq.trans (joinRows_inj (isMatrix_matrixRows content) hmatrices)
  rw [matrixRows_eq content] at hmatrix' hiff
  refine ⟨c, _, hmatch, hmatrices, hmatrix, id', w₂, hread', ?_, ?_⟩
  · rwa [hgroup, String.toList_ofList]
  · rw [hiff, hgroup, String.toList_ofList]
    split
    · next hfeed =>
      rw [cons_take_eq_iff (length_matrixRows _), or_iff_right (not_not_intro hfeed)]
    · next hfeed => exact iff_of_true rfl (.inl hfeed)

/-- A bar at the top, in the line below the quotes. -/
theorem readAs_withReturns_of_bar :
    let text := "basic.show_leds(\"\"\"\n#####\n.....\n.....\n.....\n.....\n\"\"\")"
    ∃ id w₁, (∅ : Workspace).readAs vocabulary text basicShowLeds.name = (.ok (some id), w₁) ∧
      ∃ c rows, basicShowLeds.matchIn text = some c ∧ IsMatrix rows ∧
        w₁.HasMatrix id (joinRows "\n" rows) ∧
        ∃ id' w₂, w₁.readAs vocabulary (.ofList (withReturns text.toList)) basicShowLeds.name =
            (.ok (some id'), w₂) ∧
          w₂.HasMatrix id' (joinRows "\n" (if (c.group 1).toList.head? = some '\n'
            then darkRow :: rows.take 4 else rows)) ∧
          (w₂.HasMatrix id' (joinRows "\n" rows) ↔
            (c.group 1).toList.head? ≠ some '\n' ∨ ∀ row ∈ rows, row = darkRow) := by
  intro text
  have hpicture : picture? text.toList =
      some "\n#####\n.....\n.....\n.....\n.....\n".toList := by
    decide +kernel
  obtain ⟨id, w₁, hread, -⟩ := readAs_of_picture? ∅ hpicture
  exact ⟨id, w₁, hread, readAs_withReturns hread w₁⟩

/-- The bar is read in the second row where lines end with two characters. -/
theorem bar_lower_with_returns :
    let text := "basic.show_leds(\"\"\"\n#####\n.....\n.....\n.....\n.....\n\"\"\")"
    '\r' ∉ text.toList ∧
      (∃ id w, (∅ : Workspace).readAs vocabulary text basicShowLeds.name = (.ok (some id), w) ∧
        w.HasMatrix id "#####\n.....\n.....\n.....\n.....") ∧
      ∃ id w, (∅ : Workspace).readAs vocabulary (.ofList (withReturns text.toList))
          basicShowLeds.name = (.ok (some id), w) ∧
        w.HasMatrix id ".....\n#####\n.....\n.....\n....." := by
  intro text
  have hpicture : picture? text.toList =
      some "\n#####\n.....\n.....\n.....\n.....\n".toList := by
    decide +kernel
  have hpicture' : picture? (String.ofList (withReturns text.toList)).toList =
      some "\r\n#####\r\n.....\r\n.....\r\n.....\r\n.....\r\n".toList := by
    decide +kernel
  obtain ⟨id, w, hread, hmatrix⟩ := readAs_of_picture? ∅ hpicture
  obtain ⟨id', w', hread', hmatrix'⟩ := readAs_of_picture? ∅ hpicture'
  have hrows : joinRows "\n" (matrixRows (afterLineFeed
      "\n#####\n.....\n.....\n.....\n.....\n".toList)) =
        "#####\n.....\n.....\n.....\n....." := by
    decide +kernel
  have hrows' : joinRows "\n" (matrixRows (afterLineFeed
      "\r\n#####\r\n.....\r\n.....\r\n.....\r\n.....\r\n".toList)) =
        ".....\n#####\n.....\n.....\n....." := by
    decide +kernel
  exact ⟨by decide +kernel, ⟨id, w, hread, hrows ▸ hmatrix⟩, id', w', hread', hrows' ▸ hmatrix'⟩

end Workspace

end ScriptBlocks
