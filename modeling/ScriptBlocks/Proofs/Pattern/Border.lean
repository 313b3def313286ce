import Mathlib.Data.List.Basic
import ScriptBlocks.Proofs.Pattern.Span

/-!
# The borders of a match

Which characters can stand at the ends of a piece that a pattern matches can be read off the
pattern, and so can whether it asks for anything around the piece. A pattern that asks for nothing
matches a text within a line just as it matches the text alone, unless a match can reach over the
border between the two.

## Main definitions

* `Pattern.canBeEmpty`, `Pattern.canStart`, `Pattern.canEnd` — what pieces can be like
* `Pattern.isFree` — nothing is asked for around a piece

## Main statements

* `Pattern.Spans.of_isFree` — a free pattern matches its pieces wherever they stand
* `Pattern.exists_border` — a piece that cannot reach over a border lies on one side of it
* `Form.isSome_matchIn_between` — a match within a line is a match in the text alone
-/

namespace ScriptBlocks

namespace Pattern

/-- Whether the empty piece can be matched. -/
def canBeEmpty : Pattern → Bool
  | nothing | many _ | few _ | atStart | atEnd | wordBoundary => true
  | one _ => false
  | seq p q => p.canBeEmpty && q.canBeEmpty
  | alt p q => p.canBeEmpty || q.canBeEmpty
  | group _ p => p.canBeEmpty

/-- Whether a piece can start with the character. -/
def canStart (c : Char) : Pattern → Bool
  | nothing | atStart | atEnd | wordBoundary => false
  | one test | many test | few test => test c
  | seq p q => p.canStart c || p.canBeEmpty && q.canStart c
  | alt p q => p.canStart c || q.canStart c
  | group _ p => p.canStart c

/-- Whether a piece can end with the character. -/
def canEnd (c : Char) : Pattern → Bool
  | nothing | atStart | atEnd | wordBoundary => false
  | one test | many test | few test => test c
  | seq p q => q.canEnd c || q.canBeEmpty && p.canEnd c
  | alt p q => p.canEnd c || q.canEnd c
  | group _ p => p.canEnd c

/-- Whether the pattern asks for nothing around a piece. -/
def isFree : Pattern → Bool
  | nothing | one _ | many _ | few _ => true
  | seq p q | alt p q => p.isFree && q.isFree
  | group _ p => p.isFree
  | atStart | atEnd | wordBoundary => false

variable {p : Pattern} {before piece rest before' rest' : List Char}
  {groups : List (Nat × List Char)} {c : Char}

namespace Spans

theorem canBeEmpty (h : p.Spans before [] rest groups) : p.canBeEmpty = true := by
  induction p generalizing before rest groups with
  | nothing | many _ | few _ | atStart | atEnd | wordBoundary => rfl
  | one test =>
    obtain ⟨d, -, hd, -⟩ := h
    exact nomatch hd
  | seq p q ihp ihq =>
    obtain ⟨u, v, gs, hs, huv, -, hu, hv⟩ := h
    obtain ⟨rfl, rfl⟩ := List.append_eq_nil_iff.1 huv.symm
    rw [Pattern.canBeEmpty, ihp hu, ihq hv]
    rfl
  | alt p q ihp ihq =>
    rw [Pattern.canBeEmpty, Bool.or_eq_true]
    exact h.imp ihp ihq
  | group i p ih =>
    obtain ⟨gs, -, hp⟩ := h
    exact ih hp

theorem canStart (h : p.Spans before piece rest groups) (hc : piece.head? = some c) :
    p.canStart c = true := by
  have hmem : c ∈ piece := List.mem_of_mem_head? hc
  induction p generalizing before piece rest groups with
  | nothing => exact absurd hmem (h.1 ▸ List.not_mem_nil)
  | atStart | atEnd | wordBoundary => exact absurd hmem (h.2.1 ▸ List.not_mem_nil)
  | one test =>
    obtain ⟨d, hd, rfl, -⟩ := h
    rwa [Pattern.canStart, ← Option.some.inj hc]
  | many test | few test => exact h.1 c hmem
  | seq p q ihp ihq =>
    obtain ⟨u, v, gs, hs, rfl, -, hu, hv⟩ := h
    rw [Pattern.canStart, Bool.or_eq_true, Bool.and_eq_true]
    cases u with
    | nil => exact .inr ⟨hu.canBeEmpty, ihq hv hc hmem⟩
    | cons d u => exact .inl (ihp hu hc (List.mem_of_mem_head? hc))
  | alt p q ihp ihq =>
    rw [Pattern.canStart, Bool.or_eq_true]
    exact h.imp (fun h => ihp h hc hmem) fun h => ihq h hc hmem
  | group i p ih =>
    obtain ⟨gs, -, hp⟩ := h
    exact ih hp hc hmem

theorem canEnd (h : p.Spans before piece rest groups) (hc : piece.getLast? = some c) :
    p.canEnd c = true := by
  have hmem : c ∈ piece := List.mem_of_getLast? hc
  induction p generalizing before piece rest groups with
  | nothing => exact absurd hmem (h.1 ▸ List.not_mem_nil)
  | atStart | atEnd | wordBoundary => exact absurd hmem (h.2.1 ▸ List.not_mem_nil)
  | one test =>
    obtain ⟨d, hd, rfl, -⟩ := h
    rwa [Pattern.canEnd, ← Option.some.inj hc]
  | many test | few test => exact h.1 c hmem
  | seq p q ihp ihq =>
    obtain ⟨u, v, gs, hs, rfl, -, hu, hv⟩ := h
    rw [Pattern.canEnd, Bool.or_eq_true, Bool.and_eq_true]
    rcases List.eq_nil_or_concat v with rfl | ⟨v, d, rfl⟩
    · rw [List.append_nil] at hc hmem
      exact .inr ⟨hv.canBeEmpty, ihp hu hc hmem⟩
    · have hlast : (v.concat d).getLast? = some c := by
        rw [List.concat_eq_append] at hc ⊢
        rwa [← List.append_assoc, List.getLast?_concat, ← List.getLast?_concat (l := v)] at hc
      exact .inl (ihq hv hlast (List.mem_of_getLast? hlast))
  | alt p q ihp ihq =>
    rw [Pattern.canEnd, Bool.or_eq_true]
    exact h.imp (fun h => ihp h hc hmem) fun h => ihq h hc hmem
  | group i p ih =>
    obtain ⟨gs, -, hp⟩ := h
    exact ih hp hc hmem

/-- A pattern that asks for nothing around a piece matches it wherever it stands. -/
theorem of_isFree (hp : p.isFree = true) (h : p.Spans before piece rest groups) :
    p.Spans before' piece rest' groups := by
  induction p generalizing before piece rest groups before' rest' with
  | nothing | one test | many test | few test => exact h
  | seq p q ihp ihq =>
    obtain ⟨hp, hq⟩ := Bool.and_eq_true_iff.1 hp
    obtain ⟨u, v, gs, hs, rfl, rfl, hu, hv⟩ := h
    exact ⟨u, v, gs, hs, rfl, rfl, ihp hp hu, ihq hq hv⟩
  | alt p q ihp ihq =>
    obtain ⟨hp, hq⟩ := Bool.and_eq_true_iff.1 hp
    exact h.imp (ihp hp) (ihq hq)
  | group i p ih =>
    obtain ⟨gs, rfl, h⟩ := h
    exact ⟨gs, rfl, ih hp h⟩
  | atStart | atEnd | wordBoundary => exact nomatch hp

end Spans

/-- A piece of a line lies within a part of it if it does not start in front of that part and does
not end behind it. -/
theorem exists_border {front text back : List Char}
    (h : front ++ (text ++ back) = before ++ (piece ++ rest)) (hne : piece ≠ [])
    (hfront : ∀ c ∈ front, piece.head? ≠ some c) (hback : ∀ c ∈ back, piece.getLast? ≠ some c) :
    ∃ b r, before = front ++ b ∧ rest = r ++ back ∧ text = b ++ (piece ++ r) := by
  have hstart : ∃ b, before = front ++ b ∧ text ++ back = b ++ (piece ++ rest) := by
    rcases List.append_eq_append_iff.1 h with hsplit | ⟨a, ha, hrest⟩
    · exact hsplit
    · cases a with
      | nil => exact ⟨[], by rw [ha, List.append_nil, List.append_nil], hrest.symm⟩
      | cons c a =>
        refine absurd ?_ (hfront c (ha ▸ List.mem_append_right _ List.mem_cons_self))
        have hhead : (piece ++ rest).head? = piece.head? := List.head?_append_of_ne_nil piece hne
        rw [← hhead, hrest]
        rfl
  obtain ⟨b, rfl, htext⟩ := hstart
  rw [← List.append_assoc] at htext
  rcases List.append_eq_append_iff.1 htext with ⟨a, ha, hrest⟩ | ⟨r, rfl, rfl⟩
  · rcases List.eq_nil_or_concat a with rfl | ⟨a, c, rfl⟩
    · rw [List.append_nil] at ha
      exact ⟨b, [], rfl, hrest.symm, by rw [List.append_nil, ha]⟩
    · rw [List.concat_eq_append] at ha hrest
      refine absurd ?_ (hback c (hrest ▸ by simp))
      rw [← List.getLast?_append_of_ne_nil b hne, ha, ← List.append_assoc, List.getLast?_concat]
  · exact ⟨b, r, rfl, rfl, List.append_assoc ..⟩

end Pattern

namespace Form

/-- A match within a line is a match in the text between its ends, if the pattern is free and a
match can neither start in front of the text nor end behind it. -/
theorem isSome_matchIn_between {f : Form} {front text back : List Char}
    (hfree : f.pattern.isFree = true) (hempty : f.pattern.canBeEmpty = false)
    (hfront : ∀ c ∈ front, f.pattern.canStart c = false)
    (hback : ∀ c ∈ back, f.pattern.canEnd c = false) :
    (f.matchIn (.ofList (front ++ (text ++ back)))).isSome = (f.matchIn (.ofList text)).isSome := by
  rw [Bool.eq_iff_iff]
  constructor
  · intro h
    obtain ⟨c, hc⟩ := Option.isSome_iff_exists.1 h
    obtain ⟨before, piece, rest, groups, hs, hspans, -⟩ := spans_of_matchIn hc
    have hne : piece ≠ [] := by
      rintro rfl
      exact nomatch hempty.symm.trans hspans.canBeEmpty
    obtain ⟨b, r, -, -, rfl⟩ := Pattern.exists_border hs hne
      (fun c hc hhead => nomatch (hfront c hc).symm.trans (hspans.canStart hhead))
      fun c hc hlast => nomatch (hback c hc).symm.trans (hspans.canEnd hlast)
    exact isSome_matchIn_of_spans (hspans.of_isFree hfree)
  · intro h
    obtain ⟨c, hc⟩ := Option.isSome_iff_exists.1 h
    obtain ⟨before, piece, rest, groups, rfl, hspans, -⟩ := spans_of_matchIn hc
    have hsome : (f.matchIn (.ofList ((front ++ before) ++ (piece ++ (rest ++ back))))).isSome =
        true := isSome_matchIn_of_spans (hspans.of_isFree hfree)
    simpa using hsome

end Form

end ScriptBlocks
