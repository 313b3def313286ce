import Mathlib.Data.List.Basic
import ScriptBlocks.Pattern

/-!
# Runs without a choice

A pattern tries one way to match after the other, but often there is no more than one: a literal stands
at a place or does not, and white space is passed over as a whole where what follows it starts with
something else. A lazy repetition stops at the first place from which the rest works out.

## Main definitions

* `Pattern.shortest` — what a lazy repetition of any characters passes over

## Main statements

* `Pattern.run_lit`, `Pattern.run_blanks` — literals, and white space in front of something else
* `Pattern.exists_of_shortest`, `Pattern.runFew_eq` — a lazy repetition of any characters
-/

namespace ScriptBlocks.Pattern

open Text

variable {α β : Type} {before s : List Char}

/-- A literal goes on behind its text, if that is what comes next. -/
theorem run_chars {k : Place → Option (Ending α)} (cs : List Char) :
    (chars cs).run k ⟨before, s⟩ =
      (s.dropPrefix? cs).bind fun t => k ⟨cs.reverse ++ before, t⟩ := by
  induction cs generalizing before s with
  | nil => simp [chars, run]
  | cons c cs ih =>
    have hrun : (chars (c :: cs)).run k ⟨before, s⟩ =
        (one (· = c)).run ((chars cs).run k) ⟨before, s⟩ := by
      cases cs <;> rfl
    rw [hrun]
    cases s with
    | nil => rfl
    | cons d s =>
      simp only [run, decide_eq_true_eq, List.dropPrefix?, beq_iff_eq]
      split
      · next hd =>
        rw [ih, List.reverse_cons, List.append_assoc, hd]
        rfl
      · rfl

theorem run_lit {k : Place → Option (Ending α)} (w : String) : (lit w).run k ⟨before, s⟩ =
    (s.dropPrefix? w.toList).bind fun t => k ⟨w.toList.reverse ++ before, t⟩ :=
  run_chars w.toList

/-- White space is passed over as a whole if nothing starts with it behind. -/
theorem run_blanks {k : Place → Option (Ending α)}
    (hk : ∀ b c t, isWhite c = true → k ⟨b, c :: t⟩ = none) :
    blanks.run k ⟨before, s⟩ = k ⟨(s.takeWhile isWhite).reverse ++ before, s.dropWhile isWhite⟩ := by
  change runMany isWhite k before s = _
  induction s generalizing before with
  | nil => rfl
  | cons c s ih =>
    rw [runMany]
    by_cases hc : isWhite c = true
    · rw [if_pos hc, ih, hk before c s hc, List.takeWhile_cons_of_pos hc,
        List.dropWhile_cons_of_pos hc, List.reverse_cons, List.append_assoc, Option.orElse_eq_or,
        Option.or_none]
      rfl
    · rw [if_neg hc, List.takeWhile_cons_of_neg hc, List.dropWhile_cons_of_neg hc]
      rfl

/-- The text up to the first place from which `stops` holds. -/
def shortest (stops : List Char → Bool) : List Char → Option (List Char)
  | [] => if stops [] then some [] else none
  | c :: s => if stops (c :: s) then some [] else (shortest stops s).map (c :: ·)

/-- The text goes on from there with a place from which `stops` holds. -/
theorem exists_of_shortest {stops : List Char → Bool} {u : List Char}
    (h : shortest stops s = some u) : ∃ rest, s = u ++ rest ∧ stops rest = true := by
  induction s generalizing u with
  | nil =>
    rw [shortest] at h
    split at h
    · next hstops => exact ⟨[], by rw [← Option.some.inj h, List.nil_append], hstops⟩
    · exact nomatch h
  | cons c s ih =>
    rw [shortest] at h
    split at h
    · next hstops => exact ⟨c :: s, by rw [← Option.some.inj h, List.nil_append], hstops⟩
    · obtain ⟨v, hv, rfl⟩ := Option.map_eq_some_iff.1 h
      obtain ⟨rest, rfl, hstops⟩ := ih hv
      exact ⟨rest, rfl, hstops⟩

/-- A lazy repetition passes over no more than it has to. -/
theorem runFew_eq {k : Place → Option β} {stops : List Char → Bool}
    (hk : ∀ b t, (k ⟨b, t⟩).isSome = stops t) :
    runFew (fun _ => true) k before s =
      (shortest stops s).bind fun u => k ⟨u.reverse ++ before, s.drop u.length⟩ := by
  induction s generalizing before with
  | nil =>
    have hstop := hk before []
    rw [runFew, shortest]
    split
    · rfl
    · next hnot =>
      rwa [Bool.eq_false_iff.2 hnot, Option.isSome_eq_false_iff, Option.isNone_iff_eq_none] at hstop
  | cons c s ih =>
    have hstop := hk before (c :: s)
    rw [runFew, shortest]
    by_cases h : stops (c :: s) = true
    · rw [h, Option.isSome_iff_exists] at hstop
      obtain ⟨e, he⟩ := hstop
      rw [if_pos h, he]
      exact he.symm
    · rw [Bool.eq_false_iff.2 h, Option.isSome_eq_false_iff, Option.isNone_iff_eq_none] at hstop
      rw [if_neg h, hstop, if_pos rfl, ih]
      cases shortest stops s with
      | none => rfl
      | some u => simp

end ScriptBlocks.Pattern
