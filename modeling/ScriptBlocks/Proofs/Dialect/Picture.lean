import Mathlib.Data.List.Count
import ScriptBlocks.Proofs.Dialect.Statement

/-!
# Pictures

A picture is shown by the twenty-five digits of its lights. They may be read with line ends or colons
between the rows, but the field has a line feed between them, and a written line feed stands between
them in the text.

## Main definitions

* `Dialect.pictureRows` — digits as rows of five
* `Dialect.pictureLine` — the line that shows a picture

## Main statements

* `Dialect.spans_showLeds` — what the form matches
* `Dialect.isFaithful_showLeds` — pictures come back from their text
-/

namespace ScriptBlocks.Dialect

open Pattern

variable {before s rest digits sep : List Char} {groups : List (Nat × List Char)}
  {parts rows : List (List Char)} {test : Char → Bool}

/-- The digit of a light. -/
def isLight (c : Char) : Bool := c = '0' || c = '1'

/-- Digits as rows of five. -/
def pictureRows (digits : List Char) : List (List Char) :=
  (List.range 5).map fun i => (digits.drop (5 * i)).take 5

/-- The digits of a picture. -/
def IsPicture (digits : List Char) : Prop := digits.length = 25 ∧ ∀ c ∈ digits, isLight c = true

/-! ### Rows with something in between -/

theorem nil_intercalate (rows : List (List Char)) : [].intercalate rows = rows.flatten := by
  induction rows with
  | nil => rfl
  | cons row rows ih =>
    cases rows with
    | nil => rw [List.intercalate_singleton, List.flatten_singleton]
    | cons row' rows =>
      rw [List.intercalate_cons_cons, ih, List.append_nil]
      rfl

theorem filter_intercalate (hrows : ∀ row ∈ rows, ∀ c ∈ row, test c = true) :
    (sep.intercalate rows).filter test = (sep.filter test).intercalate rows := by
  induction rows with
  | nil => rfl
  | cons row rows ih =>
    obtain ⟨hrow, hrows⟩ := List.forall_mem_cons.1 hrows
    have hself : row.filter test = row := List.filter_eq_self.2 hrow
    cases rows with
    | nil => rw [List.intercalate_singleton, List.intercalate_singleton, hself]
    | cons row' rows =>
      rw [List.intercalate_cons_cons, List.intercalate_cons_cons, List.filter_append,
        List.filter_append, hself, ih hrows]

theorem flatMap_intercalate {f : Char → List Char} (hrows : ∀ row ∈ rows, row.flatMap f = row) :
    (sep.intercalate rows).flatMap f = (sep.flatMap f).intercalate rows := by
  induction rows with
  | nil => rfl
  | cons row rows ih =>
    obtain ⟨hrow, hrows⟩ := List.forall_mem_cons.1 hrows
    cases rows with
    | nil => rw [List.intercalate_singleton, List.intercalate_singleton, hrow]
    | cons row' rows =>
      rw [List.intercalate_cons_cons, List.intercalate_cons_cons, List.flatMap_append,
        List.flatMap_append, hrow, ih hrows]

/-- Rows with separators in between are rows each with an end. -/
theorem exists_interleave_intercalate (sep : List Char) (hrows : rows ≠ []) (first last : List Char) :
    ∃ rest : List (List Char × List Char), rest.map Prod.fst = rows ∧
      (∀ e ∈ rest, e.2 = sep ∨ e.2 = last) ∧
      first ++ (sep.intercalate rows ++ last) = Text.interleave first rest := by
  induction rows generalizing first with
  | nil => exact absurd rfl hrows
  | cons row rows ih =>
    cases rows with
    | nil =>
      refine ⟨[(row, last)], rfl, List.forall_mem_singleton.2 (.inr rfl), ?_⟩
      rw [List.intercalate_singleton, Text.interleave_cons, Text.interleave, List.flatMap_nil,
        List.append_nil]
    | cons row' rows =>
      obtain ⟨rest, hmap, hends, heq⟩ := ih (List.cons_ne_nil _ _) sep
      refine ⟨(row, sep) :: rest, congrArg (row :: ·) hmap,
        List.forall_mem_cons.2 ⟨.inl rfl, hends⟩, ?_⟩
      rw [Text.interleave_cons, ← heq, List.intercalate_cons_cons, List.append_assoc,
        List.append_assoc]

theorem length_flatten_of_forall {n : Nat} (h : ∀ part ∈ parts, part.length = n) :
    parts.flatten.length = parts.length * n := by
  induction parts with
  | nil => exact (Nat.zero_mul n).symm
  | cons part parts ih =>
    obtain ⟨hpart, hparts⟩ := List.forall_mem_cons.1 h
    rw [List.flatten_cons, List.length_append, hpart, ih hparts, List.length_cons,
      Nat.add_mul, Nat.one_mul, Nat.add_comm]

/-- The rows hold the digits, five each. -/
theorem pictureRows_spec (h : IsPicture digits) : (pictureRows digits).flatten = digits ∧
    ∀ row ∈ pictureRows digits, row.length = 5 ∧ ∀ c ∈ row, isLight c = true := by
  obtain ⟨hlength, hlights⟩ := h
  constructor
  · have hsplit (n : Nat) : digits.drop n = (digits.drop n).take 5 ++ digits.drop (n + 5) := by
      rw [← List.drop_drop, List.take_append_drop]
    have hnil : digits.drop 25 = [] := List.drop_eq_nil_of_le (Nat.le_of_eq hlength)
    have hall : digits.drop 0 = (digits.drop 0).take 5 ++ ((digits.drop 5).take 5 ++
        ((digits.drop 10).take 5 ++ ((digits.drop 15).take 5 ++ ((digits.drop 20).take 5 ++ [])))) := by
      rw [← hnil, ← hsplit 20, ← hsplit 15, ← hsplit 10, ← hsplit 5, ← hsplit 0]
    exact hall.symm
  · intro row hrow
    obtain ⟨i, hi, rfl⟩ := List.mem_map.1 hrow
    have hi : i < 5 := List.mem_range.1 hi
    constructor
    · rw [List.length_take, List.length_drop, hlength]
      omega
    · intro c hc
      exact hlights c (List.mem_of_mem_drop (List.mem_of_mem_take hc))

/-! ### What the form matches -/

theorem spans_times {p : Pattern} {P : List Char → Prop}
    (hp : ∀ {before s rest groups}, p.Spans before s rest groups ↔ P s ∧ groups = []) {n : Nat} :
    (times n p).Spans before s rest groups ↔
      (∃ parts : List (List Char), s = parts.flatten ∧ parts.length = n ∧ ∀ part ∈ parts, P part) ∧
        groups = [] := by
  induction n generalizing before s groups with
  | zero =>
    rw [times, List.replicate_zero, spans_all_nil]
    constructor
    · rintro ⟨rfl, rfl⟩
      exact ⟨⟨[], rfl, rfl, fun _ h => absurd h List.not_mem_nil⟩, rfl⟩
    · rintro ⟨⟨parts, rfl, hlength, -⟩, rfl⟩
      rw [List.length_eq_zero_iff.1 hlength]
      exact ⟨rfl, rfl⟩
  | succ n ih =>
    rw [times, List.replicate_succ, spans_all_cons]
    constructor
    · rintro ⟨u, v, gs, hs, rfl, rfl, hu, hv⟩
      obtain ⟨hpart, rfl⟩ := hp.1 hu
      obtain ⟨⟨parts, rfl, hlength, hparts⟩, rfl⟩ := ih.1 hv
      exact ⟨⟨u :: parts, rfl, congrArg (· + 1) hlength, List.forall_mem_cons.2 ⟨hpart, hparts⟩⟩, rfl⟩
    · rintro ⟨⟨parts, rfl, hlength, hparts⟩, rfl⟩
      obtain ⟨u, parts, rfl⟩ := List.exists_cons_of_length_eq_add_one hlength
      obtain ⟨hu, hparts⟩ := List.forall_mem_cons.1 hparts
      exact ⟨u, parts.flatten, [], [], rfl, rfl, hp.2 ⟨hu, rfl⟩,
        ih.2 ⟨⟨parts, rfl, Nat.succ.inj hlength, hparts⟩, rfl⟩⟩

/-- A row of five digits as the form reads it: with a line feed behind it, a written one, a colon or
nothing. -/
def IsRowText (s : List Char) : Prop := ∃ row e, s = row ++ e ∧ row.length = 5 ∧
  (∀ c ∈ row, isLight c = true) ∧ (e = ['\n'] ∨ e = ['\\', 'n'] ∨ e = [':'] ∨ e = [])

theorem spans_row : (Pattern.seq (.times 5 (.one isLight))
      (.optional (.anyOf ["\n", "\\n", ":"]))).Spans before s rest groups ↔
    IsRowText s ∧ groups = [] := by
  have hend {b p r g} : (Pattern.optional (.anyOf ["\n", "\\n", ":"])).Spans b p r g ↔
      (p = ['\n'] ∨ p = ['\\', 'n'] ∨ p = [':'] ∨ p = []) ∧ g = [] := by
    change ((lit "\n").Spans b p r g ∨ (lit "\\n").Spans b p r g ∨ (lit ":").Spans b p r g) ∨
      (p = [] ∧ g = []) ↔ _
    rw [spans_lit, spans_lit, spans_lit, or_and_right, or_and_right, or_and_right, or_assoc, or_assoc]
    exact Iff.rfl
  have hlight {b p r g} : (Pattern.one isLight).Spans b p r g ↔
      (p.length = 1 ∧ ∀ c ∈ p, isLight c = true) ∧ g = [] := by
    constructor
    · rintro ⟨c, hc, rfl, rfl⟩
      exact ⟨⟨rfl, List.forall_mem_singleton.2 hc⟩, rfl⟩
    · rintro ⟨⟨hlength, hp⟩, rfl⟩
      obtain ⟨c, rfl⟩ := List.length_eq_one_iff.1 hlength
      exact ⟨c, hp c List.mem_cons_self, rfl, rfl⟩
  constructor
  · rintro ⟨row, e, _, _, rfl, rfl, hrow, he⟩
    obtain ⟨hends, rfl⟩ := hend.1 he
    obtain ⟨⟨parts, rfl, hlength, hparts⟩, rfl⟩ := (spans_times hlight).1 hrow
    refine ⟨⟨parts.flatten, e, rfl, ?_, ?_, hends⟩, rfl⟩
    · rw [length_flatten_of_forall fun part hpart => (hparts part hpart).1, hlength]
    · intro c hc
      obtain ⟨part, hpart, hc⟩ := List.mem_flatten.1 hc
      exact (hparts part hpart).2 c hc
  · rintro ⟨⟨row, e, rfl, hlength, hrow, he⟩, rfl⟩
    refine ⟨row, e, [], [], rfl, rfl, (spans_times hlight).2 ⟨⟨row.map fun c => [c], ?_, ?_, ?_⟩, rfl⟩,
      hend.2 ⟨he, rfl⟩⟩
    · rw [← List.flatMap_def, List.flatMap_singleton']
    · rw [List.length_map, hlength]
    · intro part hpart
      obtain ⟨c, hc, rfl⟩ := List.mem_map.1 hpart
      exact ⟨rfl, List.forall_mem_singleton.2 (hrow c hc)⟩

/-- The image between the quotes. -/
def IsImage (s : List Char) : Prop :=
  ∃ parts : List (List Char), s = parts.flatten ∧ parts.length = 5 ∧ ∀ part ∈ parts, IsRowText part

theorem spans_showLeds : showLeds.pattern.Spans before s rest groups ↔ ∃ q image q',
    s = "display.show(Image(".toList ++ (q :: (image ++ (q' :: [')', ')']))) ∧
      groups = [(1, image)] ∧ (q = '"' ∨ q = '\'') ∧ IsImage image ∧ (q' = '"' ∨ q' = '\'') := by
  have hquote {b p r g} : (Pattern.one fun c => c = '"' || c = '\'').Spans b p r g ↔
      ∃ c, p = [c] ∧ (c = '"' ∨ c = '\'') ∧ g = [] := by
    simp only [Spans, Bool.or_eq_true, decide_eq_true_eq]
    constructor
    · rintro ⟨c, hc, rfl, rfl⟩
      exact ⟨c, rfl, hc, rfl⟩
    · rintro ⟨c, rfl, hc, rfl⟩
      exact ⟨c, hc, rfl, rfl⟩
  have himage {b p r g} : imagePattern.Spans b p r g ↔ IsImage p ∧ g = [] := spans_times spans_row
  change (all ["display.show(Image(", .one fun c => c = '"' || c = '\'', .group 1 imagePattern,
    .one fun c => c = '"' || c = '\'', "))"]).Spans before s rest groups ↔ _
  simp only [spans_lit_cons, spans_group_cons, himage, spans_all_cons (p := .one _), hquote,
    spans_all_nil]
  constructor
  · rintro ⟨_, rfl, _, _, _, _, rfl, rfl, ⟨q, rfl, hq, rfl⟩, image, _, _, _, rfl, rfl, ⟨himage, rfl⟩,
      _, _, _, _, rfl, rfl, ⟨q', rfl, hq', rfl⟩, _, rfl, rfl, rfl⟩
    exact ⟨q, image, q', rfl, rfl, hq, himage, hq'⟩
  · rintro ⟨q, image, q', rfl, rfl, hq, himage, hq'⟩
    exact ⟨_, rfl, [q], _, [], _, rfl, rfl, ⟨q, rfl, hq, rfl⟩, image, _, [], _, rfl, rfl, ⟨himage, rfl⟩,
      [q'], _, [], [], rfl, rfl, ⟨q', rfl, hq', rfl⟩, [], rfl, rfl, rfl⟩

/-! ### What is read -/

theorem isPicture_filter_of_isImage (h : IsImage s) : IsPicture (s.filter isLight) := by
  obtain ⟨parts, rfl, hlength, hparts⟩ := h
  constructor
  · have hfive : ∀ part ∈ parts.map (List.filter isLight), part.length = 5 := by
      intro part hpart
      obtain ⟨text, htext, rfl⟩ := List.mem_map.1 hpart
      obtain ⟨row, e, rfl, hrow, hlights, he⟩ := hparts text htext
      have hend : e.filter isLight = [] := by
        rcases he with rfl | rfl | rfl | rfl <;> rfl
      rw [List.filter_append, List.filter_eq_self.2 hlights, hend, List.append_nil, hrow]
    rw [List.filter_flatten, length_flatten_of_forall hfive, List.length_map, hlength]
  · intro c hc
    exact (List.mem_filter.1 hc).2

theorem showLeds_yields {given : Fields} (h : showLeds.Yields given) :
    ∃ digits, IsPicture digits ∧
      given = fields [("PATTERN", joinRows "\n" (pictureRows digits))] := by
  obtain ⟨text, c, hmatch, hread⟩ := h
  rw [← String.ofList_toList (s := text)] at hmatch
  obtain ⟨before, s, rest, groups, -, hspans, rfl⟩ := Form.spans_of_matchIn hmatch
  obtain ⟨q, image, q', -, rfl, -, himage, -⟩ := spans_showLeds.1 hspans
  have hgroup : (Capture.ofPieces before s rest [(1, image)]).group 1 = .ofList image :=
    Capture.group_ofPieces (List.nodup_singleton 1) List.mem_cons_self
  refine ⟨image.filter isLight, isPicture_filter_of_isImage himage, ?_⟩
  rw [← String.toList_ofList (l := image), ← hgroup]
  exact (Except.ok.inj hread).symm

/-! ### What is written -/

/-- The line that shows a picture. -/
def pictureLine (digits : List Char) : List Char :=
  "display.show(Image(\"".toList ++ (['\\', 'n'].intercalate (pictureRows digits) ++ "\"))".toList)

/-- The words of a picture's line. -/
def pictureWords : List (List Char) :=
  ["display.show(Image(\"".toList, ['\\', 'n'], "\"))".toList]

theorem pictureRows_ne_nil (digits : List Char) : pictureRows digits ≠ [] := List.cons_ne_nil _ _

theorem isWorded_pictureLine (h : IsPicture digits) :
    IsWorded pictureWords (pictureLine digits) := by
  obtain ⟨rest, hmap, hends, heq⟩ := exists_interleave_intercalate ['\\', 'n']
    (pictureRows_ne_nil digits) "display.show(Image(\"".toList "\"))".toList
  unfold pictureLine
  rw [heq]
  apply isWorded_interleave
  intro e he
  have hmem : e.1 ∈ pictureRows digits := hmap ▸ List.mem_map_of_mem he
  obtain ⟨hlength, hlights⟩ := (pictureRows_spec h).2 e.1 hmem
  refine ⟨⟨List.ne_nil_of_length_pos (hlength ▸ Nat.zero_lt_succ 4), fun c hc => ?_⟩, ?_⟩
  · rcases Bool.or_eq_true_iff.1 (hlights c hc) with hc | hc
    · rw [of_decide_eq_true hc]
      decide
    · rw [of_decide_eq_true hc]
      decide
  · rcases hends e he with he | he
    · exact he ▸ List.mem_cons_self
    · exact he ▸ List.mem_cons_of_mem _ List.mem_cons_self

theorem isEnclosed_pictureLine (digits : List Char) : IsEnclosed (pictureLine digits) := by
  refine ⟨'d', "isplay.show(Image(\"".toList ++
    (['\\', 'n'].intercalate (pictureRows digits) ++ "\")".toList), ?_, by decide, by decide⟩
  have hend : "\"))".toList = "\")".toList ++ [')'] := by decide
  unfold pictureLine
  rw [hend]
  simp only [List.append_assoc]
  rfl

theorem isImage_written (h : IsPicture digits) :
    IsImage (['\\', 'n'].intercalate (pictureRows digits)) := by
  obtain ⟨rest, hmap, hends, heq⟩ := exists_interleave_intercalate ['\\', 'n']
    (pictureRows_ne_nil digits) [] []
  rw [List.append_nil, List.nil_append, Text.interleave, List.nil_append, List.flatMap_def] at heq
  refine ⟨_, heq, ?_, ?_⟩
  · have hlength := congrArg List.length hmap
    rw [List.length_map] at hlength
    rw [List.length_map, hlength]
    rfl
  · intro part hpart
    obtain ⟨e, he, rfl⟩ := List.mem_map.1 hpart
    have hmem : e.1 ∈ pictureRows digits := hmap ▸ List.mem_map_of_mem he
    obtain ⟨hlength, hlights⟩ := (pictureRows_spec h).2 e.1 hmem
    refine ⟨e.1, e.2, rfl, hlength, hlights, ?_⟩
    rcases hends e he with he | he
    · exact .inr (.inl he)
    · exact .inr (.inr (.inr he))

theorem filter_written (h : IsPicture digits) :
    (['\\', 'n'].intercalate (pictureRows digits)).filter isLight = digits := by
  obtain ⟨hflatten, hrows⟩ := pictureRows_spec h
  have hsep : ['\\', 'n'].filter isLight = [] := by decide
  rw [filter_intercalate fun row hrow => (hrows row hrow).2, hsep, nil_intercalate, hflatten]

/-- In the line of a picture there are just two closing parentheses, and a match ends in two. -/
theorem count_pictureLine (h : IsPicture digits) : (pictureLine digits).count ')' = 2 := by
  have hnone : (['\\', 'n'].intercalate (pictureRows digits)).count ')' = 0 := by
    rw [List.count_eq_zero]
    intro hmem
    obtain ⟨parts, heq, -, hparts⟩ := isImage_written h
    rw [heq, List.mem_flatten] at hmem
    obtain ⟨part, hpart, hmem⟩ := hmem
    obtain ⟨row, e, rfl, -, hlights, he⟩ := hparts part hpart
    rcases List.mem_append.1 hmem with hmem | hmem
    · exact absurd (hlights _ hmem) (by decide)
    · rcases he with rfl | rfl | rfl | rfl <;> exact absurd hmem (by decide)
  have hfirst : "display.show(Image(\"".toList.count ')' = 0 := by decide
  have hlast : "\"))".toList.count ')' = 2 := by decide
  unfold pictureLine
  rw [List.count_append, List.count_append, hnone, hfirst, hlast]

theorem pictureLine_eq (digits : List Char) : pictureLine digits = "display.show(Image(".toList ++
    ('"' :: (['\\', 'n'].intercalate (pictureRows digits) ++ ['"', ')', ')'])) := by
  have hopen : "display.show(Image(\"".toList = "display.show(Image(".toList ++ ['"'] := by
    decide
  unfold pictureLine
  rw [hopen, List.append_assoc]
  rfl

theorem matchIn_pictureLine (h : IsPicture digits) :
    ∃ c, showLeds.matchIn (.ofList (pictureLine digits)) = some c ∧
      showLeds.readFields c = .ok (fields [("PATTERN", joinRows "\n" (pictureRows digits))]) := by
  have hspans : showLeds.pattern.Spans [] (pictureLine digits) []
      [(1, ['\\', 'n'].intercalate (pictureRows digits))] :=
    spans_showLeds.2 ⟨'"', _, '"', pictureLine_eq digits, rfl, .inl rfl, isImage_written h, .inl rfl⟩
  have honly : ∀ piece rest gs, pictureLine digits = piece ++ rest →
      showLeds.pattern.Spans [] piece rest gs → rest = [] := by
    intro piece rest gs heq hpiece
    obtain ⟨q, image, q', rfl, -, -, -, -⟩ := spans_showLeds.1 hpiece
    have hcount := count_pictureLine h
    rw [heq] at hcount
    rcases List.eq_nil_or_concat rest with hrest | ⟨r, d, rfl⟩
    · exact hrest
    · obtain ⟨c, mid, hmid, -⟩ := isEnclosed_pictureLine digits
      have hlast := congrArg List.getLast? (heq.symm.trans hmid)
      rw [List.concat_eq_append, ← List.append_assoc, List.getLast?_concat, ← List.cons_append,
        List.getLast?_concat] at hlast
      rw [Option.some.inj hlast, List.concat_eq_append] at hcount
      have hthree : [')', ')', ')'].Sublist
          ("display.show(Image(".toList ++ (q :: (image ++ (q' :: [')', ')']))) ++ (r ++ [')'])) := by
        have htwo : [')', ')'] <:+ "display.show(Image(".toList ++ (q :: (image ++ (q' :: [')', ')']))) :=
          ⟨"display.show(Image(".toList ++ (q :: (image ++ [q'])), by simp⟩
        exact htwo.sublist.append (List.sublist_append_right r [')'])
      have hle := hthree.count_le ')'
      rw [hcount] at hle
      exact absurd hle (by decide)
  obtain ⟨groups, hgroups, hmatch⟩ := Form.matchWhole_of_spans hspans honly
  obtain ⟨q, image, q', heq, rfl, -⟩ := spans_showLeds.1 hgroups
  rw [pictureLine_eq] at heq
  have htail := (List.cons.inj (List.append_cancel_left heq)).2
  obtain ⟨rfl, -⟩ := List.append_inj' htail rfl
  rw [Form.matchWhole_eq, Option.filter_eq_some_iff] at hmatch
  refine ⟨_, hmatch.1, ?_⟩
  have hgroup : (Capture.ofPieces [] (pictureLine digits) []
      [(1, ['\\', 'n'].intercalate (pictureRows digits))]).group 1 =
        .ofList (['\\', 'n'].intercalate (pictureRows digits)) :=
    Capture.group_ofPieces (List.nodup_singleton 1) List.mem_cons_self
  change Except.ok (fields [("PATTERN", joinRows "\n" (pictureRows
    (((Capture.ofPieces [] (pictureLine digits) []
      [(1, ['\\', 'n'].intercalate (pictureRows digits))]).group 1).toList.filter isLight)))]) = _
  rw [hgroup, String.toList_ofList, filter_written h]

/-! ### From the field to the text -/

theorem toList_joinRows (rows : List (List Char)) :
    (joinRows "\n" rows).toList = ['\n'].intercalate rows := by
  have hid : String.toList ∘ String.ofList = id := funext fun _ => String.toList_ofList
  rw [joinRows, String.toList_intercalate, List.map_map, hid, List.map_id]
  rfl

theorem joinRows_pictureRows_ne (h : IsPicture digits) :
    joinRows "\n" (pictureRows digits) ≠ "" := by
  obtain ⟨hflatten, hrows⟩ := pictureRows_spec h
  intro hempty
  have hnil : ['\n'].intercalate (pictureRows digits) = [] := by
    rw [← toList_joinRows, hempty]
    rfl
  have hfilter : (['\n'].intercalate (pictureRows digits)).filter isLight = digits := by
    have hsep : ['\n'].filter isLight = [] := by decide
    rw [filter_intercalate fun row hrow => (hrows row hrow).2, hsep, nil_intercalate, hflatten]
  rw [hnil] at hfilter
  have hlength := h.1
  rw [← hfilter] at hlength
  exact absurd hlength (by decide)

/-- The field has a line feed between the rows, and a written one stands there in the text. -/
theorem flatMap_joinRows (h : IsPicture digits) :
    (((joinRows "\n" (pictureRows digits)).toList.filter (· ≠ '\r')).flatMap
      fun c => if c = '\n' then ['\\', 'n'] else [c]) =
        ['\\', 'n'].intercalate (pictureRows digits) := by
  have hlights : ∀ row ∈ pictureRows digits, ∀ c ∈ row, isLight c = true := fun row hrow =>
    ((pictureRows_spec h).2 row hrow).2
  have hreturn : ∀ row ∈ pictureRows digits, ∀ c ∈ row, decide (c ≠ '\r') = true := by
    intro row hrow c hc
    apply decide_eq_true
    rintro rfl
    exact absurd (hlights row hrow _ hc) (by decide)
  have hkept : ∀ row ∈ pictureRows digits,
      row.flatMap (fun c => if c = '\n' then ['\\', 'n'] else [c]) = row := by
    intro row hrow
    have hself : ∀ c ∈ row, (if c = '\n' then ['\\', 'n'] else [c]) = [c] := by
      intro c hc
      apply if_neg
      rintro rfl
      exact absurd (hlights row hrow _ hc) (by decide)
    rw [List.flatMap_congr hself, List.flatMap_singleton']
  rw [toList_joinRows, filter_intercalate hreturn]
  exact flatMap_intercalate hkept

theorem write_showLeds (h : IsPicture digits) {p : Parts}
    (hfield : p.fields.find? "PATTERN" = some (.string (joinRows "\n" (pictureRows digits)))) :
    showLeds.write p = .ok (.statement (.ofList (pictureLine digits ++ ['\n']))) := by
  have htext : p.fields.text "PATTERN" = joinRows "\n" (pictureRows digits) := by
    rw [Fields.text, hfield]
    rfl
  have hpattern : p.fieldOr "PATTERN" darkPattern = joinRows "\n" (pictureRows digits) := by
    rw [Parts.fieldOr, Fields.textOr, htext, if_neg (joinRows_pictureRows_ne h)]
  have hend : "\"))\n".toList = "\"))".toList ++ ['\n'] := by decide
  change Except.ok (Fragment.statement ("display.show(Image(\"" ++
    String.ofList (((p.fieldOr "PATTERN" darkPattern).toList.filter (· ≠ '\r')).flatMap
      fun c => if c = '\n' then ['\\', 'n'] else [c]) ++ "\"))\n")) = _
  rw [hpattern, flatMap_joinRows h]
  refine congrArg (fun code => Except.ok (Fragment.statement code)) (String.toList_inj.1 ?_)
  rw [String.toList_append, String.toList_append,
    String.toList_ofList (l := ['\\', 'n'].intercalate (pictureRows digits)),
    String.toList_ofList (l := pictureLine digits ++ ['\n']), hend]
  unfold pictureLine
  rw [List.append_assoc, List.append_assoc, List.append_assoc]

/-- Pictures come back from their text. -/
theorem isFaithful_showLeds : IsFaithful showLeds where
  get_eq := rfl
  construction_eq := rfl
  shape_eq := rfl
  slots_eq := rfl
  exists_line hgiven := by
    obtain ⟨digits, hdigits, rfl⟩ := showLeds_yields hgiven
    have hworded := isWorded_pictureLine hdigits
    have henclosed := isEnclosed_pictureLine digits
    obtain ⟨c, hmatch, hread⟩ := matchIn_pictureLine hdigits
    have hfirst := hworded.firstMatch_eq (i := 8) rfl (by decide) (by decide) hmatch
    refine ⟨_, hworded.isLine ?_, henclosed.trimmed, ⟨henclosed.ignores_eq, c, hfirst, hread⟩, ?_⟩
    · decide
    · intro p hfields
      exact write_showLeds hdigits (hfields _ List.mem_cons_self)

end ScriptBlocks.Dialect
