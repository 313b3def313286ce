import ScriptBlocks.Layout

/-!
# Indentation line by line

The pieces into which a text is cut can be indented one by one: an indent of white space without
line feeds changes neither where the cuts are nor which pieces are blank. So texts of complete lines
are indented one after the other, and indents add up.

## Main definitions

* `Text.Cut` — pieces of a text as they are cut after line feeds
* `Text.EndsLines` — a text of complete lines, possibly none
* `Layout.Indent` — an indent of white space without line breaks
* `Layout.LaidOut` — a text as a body is laid out

## Main statements

* `Text.pieces_append` — complete lines are cut apart from what follows them
* `Layout.pieces_indentChars` — the pieces of an indented text are the indented pieces
* `Layout.indentChars_indentChars` — indents add up
* `Layout.LaidOut.blockChars_eq` — a body that is laid out is left as it is
* `Layout.blockChars_indentChars` — a body that is already indented is not indented again
-/

namespace ScriptBlocks

namespace Text

variable {s t : List Char} {ps : List (List Char)}

theorem isBlank_append : isBlank (s ++ t) = (isBlank s && isBlank t) := List.all_append

/-! ### Pieces -/

/-- Pieces as they come from cutting a text after each line feed: only the last may lack one. -/
inductive Cut : List (List Char) → Prop where
  | nil : Cut []
  | last {l : List Char} (hne : l ≠ []) (hl : '\n' ∉ l) : Cut [l]
  | cons {l : List Char} {ps : List (List Char)} (hl : '\n' ∉ l) (h : Cut ps) :
    Cut ((l ++ ['\n']) :: ps)

theorem cut_pieces (s : List Char) : Cut (pieces s) := by
  induction s with
  | nil => exact .nil
  | cons c rest ih =>
    rw [pieces]
    by_cases hc : c = '\n'
    · subst hc
      exact .cons (l := []) List.not_mem_nil ih
    · have hcons {l : List Char} (hl : '\n' ∉ l) : '\n' ∉ c :: l := by
        rw [List.mem_cons, not_or]
        exact ⟨Ne.symm hc, hl⟩
      rw [if_neg hc]
      generalize pieces rest = ps at ih
      cases ih with
      | nil => exact .last (List.cons_ne_nil _ _) (hcons List.not_mem_nil)
      | last _ hl => exact .last (List.cons_ne_nil _ _) (hcons hl)
      | @cons l ps hl h => exact .cons (l := c :: l) (hcons hl) h

theorem pieces_of_not_mem (hs : '\n' ∉ s) (hne : s ≠ []) : pieces s = [s] := by
  induction s with
  | nil => exact absurd rfl hne
  | cons c s ih =>
    rw [List.mem_cons, not_or] at hs
    rw [pieces, if_neg (Ne.symm hs.1)]
    cases s with
    | nil => rfl
    | cons d s => rw [ih hs.2 (List.cons_ne_nil _ _)]

theorem pieces_line (hs : '\n' ∉ s) (t : List Char) :
    pieces (s ++ '\n' :: t) = (s ++ ['\n']) :: pieces t := by
  induction s with
  | nil => rw [List.nil_append, pieces, if_pos rfl, List.nil_append]
  | cons c s ih =>
    rw [List.mem_cons, not_or] at hs
    rw [List.cons_append, pieces, if_neg (Ne.symm hs.1), ih hs.2]
    rfl

/-- A text is cut into the pieces that it was put together from. -/
theorem Cut.pieces_flatten (h : Cut ps) : pieces ps.flatten = ps := by
  induction h with
  | nil => rfl
  | last hne hl => rw [List.flatten_singleton, pieces_of_not_mem hl hne]
  | cons hl h ih => rw [List.flatten_cons, List.append_assoc, List.singleton_append,
      pieces_line hl, ih]

theorem isBlank_eq_all_pieces (s : List Char) : isBlank s = (pieces s).all isBlank := by
  rw [← congrArg isBlank (flatten_pieces s), isBlank, List.all_flatten]
  rfl

/-! ### Complete lines -/

/-- The text is made up of complete lines, possibly none. -/
def EndsLines (s : List Char) : Prop := s = [] ∨ s.getLast? = some '\n'

theorem EndsLines.of_cons {c : Char} (h : EndsLines (c :: s)) : EndsLines s := by
  cases s with
  | nil => exact .inl rfl
  | cons d s => exact .inr (h.resolve_left (List.cons_ne_nil _ _))

/-- Complete lines are cut apart from what follows them. -/
theorem pieces_append (hs : EndsLines s) (t : List Char) :
    pieces (s ++ t) = pieces s ++ pieces t := by
  induction s with
  | nil => rfl
  | cons c s ih =>
    rw [List.cons_append, pieces, pieces, ih hs.of_cons]
    by_cases hc : c = '\n'
    · rw [if_pos hc, if_pos hc, List.cons_append]
    · rw [if_neg hc, if_neg hc]
      cases hpieces : pieces s with
      | cons p ps => rfl
      | nil =>
        -- a last line that is not ended
        have hs' : s = [] := by rw [← flatten_pieces s, hpieces, List.flatten_nil]
        subst hs'
        rcases hs with hs | hs
        · exact absurd hs (List.cons_ne_nil _ _)
        · exact absurd (Option.some.inj hs) hc

end Text

namespace Layout

open Text

/-- An indent: white space without line breaks. -/
structure Indent (indent : List Char) : Prop where
  isBlank : isBlank indent = true
  feed : '\n' ∉ indent
  carriageReturn : '\r' ∉ indent

variable {indent outer s t piece : List Char}

theorem Indent.nil : Indent [] := ⟨rfl, List.not_mem_nil, List.not_mem_nil⟩

theorem Indent.append (houter : Indent outer) (hindent : Indent indent) :
    Indent (outer ++ indent) where
  isBlank := by rw [isBlank_append, houter.isBlank, hindent.isBlank, Bool.and_self]
  feed := List.not_mem_append houter.feed hindent.feed
  carriageReturn := List.not_mem_append houter.carriageReturn hindent.carriageReturn

theorem Indent.replicate (hindent : Indent indent) (d : Nat) :
    Indent (List.replicate d indent).flatten := by
  induction d with
  | zero => exact .nil
  | succ d ih =>
    rw [List.replicate_succ, List.flatten_cons]
    exact hindent.append ih

/-! ### One piece -/

theorem isBlank_indentPiece (hindent : Indent indent) (piece : List Char) :
    isBlank (indentPiece indent piece) = isBlank piece := by
  rw [indentPiece]
  split
  · rfl
  · rw [isBlank_append, hindent.isBlank, Bool.true_and]

theorem indentPiece_indentPiece (hindent : Indent indent) (outer piece : List Char) :
    indentPiece outer (indentPiece indent piece) = indentPiece (outer ++ indent) piece := by
  rw [indentPiece, isBlank_indentPiece hindent, indentPiece, indentPiece]
  split
  · rfl
  · rw [List.append_assoc]

theorem getLast?_indentPiece (hne : piece ≠ []) (indent : List Char) :
    (indentPiece indent piece).getLast? = piece.getLast? := by
  rw [indentPiece]
  split
  · rfl
  · rw [List.getLast?_append, List.getLast?_eq_some_getLast hne, Option.some_or]

theorem cut_map_indentPiece (hindent : Indent indent) {ps : List (List Char)} (h : Cut ps) :
    Cut (ps.map (indentPiece indent)) := by
  induction h with
  | nil => exact .nil
  | @last l hne hl =>
    rw [List.map_singleton, indentPiece]
    split
    · exact .last hne hl
    · exact .last (List.append_ne_nil_of_right_ne_nil _ hne) (List.not_mem_append hindent.feed hl)
  | @cons l ps hl h ih =>
    rw [List.map_cons, indentPiece]
    split
    · exact .cons hl ih
    · rw [← List.append_assoc]
      exact .cons (List.not_mem_append hindent.feed hl) ih

/-! ### Texts -/

/-- The pieces of an indented text are the indented pieces. -/
theorem pieces_indentChars (hindent : Indent indent) (s : List Char) :
    pieces (indentChars indent s) = (pieces s).map (indentPiece indent) :=
  (cut_map_indentPiece hindent (cut_pieces s)).pieces_flatten

theorem indentChars_nil (s : List Char) : indentChars [] s = s := by
  have hpiece : indentPiece [] = id := by
    funext piece
    simp [indentPiece]
  rw [indentChars, hpiece, List.map_id, flatten_pieces]

theorem indentChars_append (hs : EndsLines s) (indent t : List Char) :
    indentChars indent (s ++ t) = indentChars indent s ++ indentChars indent t := by
  simp only [indentChars, pieces_append hs, List.map_append, List.flatten_append]

/-- Indents add up. -/
theorem indentChars_indentChars (hindent : Indent indent) (outer s : List Char) :
    indentChars outer (indentChars indent s) = indentChars (outer ++ indent) s := by
  rw [indentChars, pieces_indentChars hindent, indentChars, List.map_map]
  refine congrArg List.flatten (List.map_congr_left fun piece _ => ?_)
  exact indentPiece_indentPiece hindent outer piece

theorem isBlank_indentChars (hindent : Indent indent) (s : List Char) :
    isBlank (indentChars indent s) = isBlank s := by
  rw [isBlank_eq_all_pieces, pieces_indentChars hindent, isBlank_eq_all_pieces s, List.all_map]
  congr 1
  funext piece
  exact isBlank_indentPiece hindent piece

theorem getLast?_flatten_map_indentPiece {ps : List (List Char)} (hps : ∀ p ∈ ps, p ≠ [])
    (indent : List Char) :
    (ps.map (indentPiece indent)).flatten.getLast? = ps.flatten.getLast? := by
  induction ps with
  | nil => rfl
  | cons p ps ih =>
    rw [List.forall_mem_cons] at hps
    rw [List.map_cons, List.flatten_cons, List.flatten_cons, List.getLast?_append, ih hps.2,
      getLast?_indentPiece hps.1, ← List.getLast?_append]

theorem getLast?_indentChars (indent s : List Char) :
    (indentChars indent s).getLast? = s.getLast? := by
  have h := getLast?_flatten_map_indentPiece (fun p hp => ne_nil_of_mem_pieces (s := s) hp) indent
  rwa [flatten_pieces] at h

theorem endsLines_indentChars (hs : EndsLines s) (indent : List Char) :
    EndsLines (indentChars indent s) := by
  rcases hs with rfl | hs
  · exact .inl rfl
  · exact .inr ((getLast?_indentChars indent s).trans hs)

/-- No characters are added but those of the indent. -/
theorem mem_indentChars {c : Char} (h : c ∈ indentChars indent s) : c ∈ indent ∨ c ∈ s := by
  obtain ⟨piece, hpiece, hc⟩ := List.mem_flatten.1 h
  obtain ⟨p, hp, rfl⟩ := List.mem_map.1 hpiece
  have hmem (h : c ∈ p) : c ∈ s := by
    rw [← flatten_pieces s]
    exact List.mem_flatten_of_mem hp h
  rw [indentPiece] at hc
  split at hc
  · exact .inr (hmem hc)
  · exact (List.mem_append.1 hc).imp_right hmem

/-- An indented text starts with the indent, but for blank lines. -/
theorem startsIndented_indentChars (hindent : Indent indent) (hne : indent ≠ [])
    (hs : isBlank s = false) : startsIndented (indentChars indent s) = true := by
  rw [startsIndented, pieces_indentChars hindent, List.find?_map]
  have hblank : ((fun p => !isBlank p) ∘ indentPiece indent) = fun p => !isBlank p := by
    funext piece
    rw [Function.comp_apply, isBlank_indentPiece hindent]
  rw [hblank]
  cases hfind : (pieces s).find? fun p => !isBlank p with
  | none =>
    rw [List.find?_eq_none] at hfind
    rw [isBlank_eq_all_pieces, List.all_eq_false] at hs
    obtain ⟨p, hp, hnot⟩ := hs
    exact absurd (by simpa using hnot) (hfind p hp)
  | some p =>
    have hp : isBlank p = false := by simpa using List.find?_some hfind
    obtain ⟨c, rest, rfl⟩ := List.exists_cons_of_ne_nil hne
    simp only [Option.map_some, indentPiece, hp, Bool.false_eq_true, if_false, List.cons_append]
    have hwhite := hindent.isBlank
    rw [Text.isBlank, List.all_cons, Bool.and_eq_true] at hwhite
    exact hwhite.1

/-! ### Bodies -/

theorem filter_ne_return (hs : '\r' ∉ s) : s.filter (· ≠ '\r') = s := by
  rw [List.filter_eq_self]
  intro c hc
  exact decide_eq_true fun heq => hs (heq ▸ hc)

theorem not_mem_endLine (hs : '\r' ∉ s) : '\r' ∉ endLine s := by
  rw [endLine]
  split
  · exact hs
  · exact List.not_mem_append hs (by decide)

/-- A carriage return in a body is one of the placeholder. -/
theorem return_of_mem_blockChars {placeholder : List Char} (hindent : '\r' ∉ indent)
    (h : '\r' ∈ blockChars indent placeholder s) : isBlank s = true ∧ '\r' ∈ placeholder := by
  rw [blockChars] at h
  split at h
  · next hblank =>
    rcases List.mem_append.1 h with h | h
    · exact ⟨hblank, (List.mem_append.1 h).resolve_left hindent⟩
    · exact absurd h (by decide)
  · have hcode : '\r' ∉ s.filter (· ≠ '\r') := by
      intro h
      exact of_decide_eq_true (List.mem_filter.1 h).2 rfl
    refine absurd h (not_mem_endLine ?_)
    split
    · exact hcode
    · intro h
      exact (mem_indentChars h).elim hindent hcode

/-- A text as a body is laid out, if it has more to it than white space. -/
structure LaidOut (indent s : List Char) : Prop where
  isBlank_eq : isBlank s = false
  carriageReturn : '\r' ∉ s
  ended : s.getLast? = some '\n'
  indented : indent = [] ∨ startsIndented s = true

/-- A body that is laid out is left as it is. -/
theorem LaidOut.blockChars_eq (h : LaidOut indent s) (placeholder : List Char) :
    blockChars indent placeholder s = s := by
  have hsame : (if startsIndented s then s else indentChars indent s) = s := by
    rcases h.indented with rfl | hstart
    · rw [indentChars_nil, ite_self]
    · rw [if_pos hstart]
  rw [blockChars, if_neg (h.isBlank_eq ▸ Bool.false_ne_true)]
  simp only [filter_ne_return h.carriageReturn, hsame]
  rw [endLine, if_pos h.ended]

/-- Indenting complete lines lays them out. -/
theorem laidOut_indentChars (hindent : Indent indent) (hs : isBlank s = false)
    (hlast : s.getLast? = some '\n') (hreturn : '\r' ∉ s) :
    LaidOut indent (indentChars indent s) where
  isBlank_eq := (isBlank_indentChars hindent s).trans hs
  carriageReturn h := (mem_indentChars h).elim hindent.carriageReturn hreturn
  ended := (getLast?_indentChars indent s).trans hlast
  indented := by
    by_cases hne : indent = []
    · exact .inl hne
    · exact .inr (startsIndented_indentChars hindent hne hs)

/-- A body whose lines are indented already is left as it is, unless it is blank. -/
theorem blockChars_indentChars (hindent : Indent indent) (placeholder : List Char)
    (hlines : EndsLines s) (hs : '\r' ∉ s) :
    blockChars indent placeholder (indentChars indent s) =
      if isBlank s then indent ++ placeholder ++ ['\n'] else indentChars indent s := by
  cases hblank : isBlank s with
  | true =>
    rw [if_pos rfl, blockChars, isBlank_indentChars hindent, if_pos hblank]
  | false =>
    have hlast : s.getLast? = some '\n' := by
      refine hlines.resolve_left ?_
      rintro rfl
      exact nomatch hblank
    rw [if_neg Bool.false_ne_true]
    exact (laidOut_indentChars hindent hblank hlast hs).blockChars_eq placeholder

end Layout

end ScriptBlocks
