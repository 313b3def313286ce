import Mathlib.Data.List.TakeDrop
import ScriptBlocks.Json.Writer
import ScriptBlocks.Proofs.Json.Quoted
import ScriptBlocks.Proofs.Number.Numeral

/-!
# Numbers as they are written

The reader takes the longest number that a text begins with. So a number is read back from each of
its texts when what follows the text could not be a part of it: no digit, no point and no exponent.
The texts of a number differ in how its exponent is written only; the writer's is one of them.

## Main definitions

* `Json.DerivesNumber` — `s` is a text of the number `n`
* `Json.Number.Proper` — there are digits behind the point only
* `Json.EndsNumber` — a text does not continue the number in front of it

## Main statements

* `Json.readScalar_of_derives` — a number is read back from each of its texts
* `Json.derivesNumber_chars` — the written form is a text of the number
-/

namespace ScriptBlocks.Json

variable {ds s rest : List Char} {n : Number} {e : Option Int}

/-! ### The texts of numbers -/

/-- Digits, and at least one. -/
def IsDigits (ds : List Char) : Prop := ds ≠ [] ∧ ∀ c ∈ ds, c.isDigit = true

theorem IsDigits.exists_eq_cons (h : IsDigits ds) : ∃ c u, ds = c :: u ∧ c.isDigit = true := by
  obtain ⟨c, u, rfl⟩ := List.exists_cons_of_ne_nil h.1
  exact ⟨c, u, rfl, h.2 c List.mem_cons_self⟩

theorem isDigits_toDigits (n : Nat) : IsDigits (Nat.toDigits 10 n) :=
  ⟨Nat.toDigits_ne_nil, fun _ => isDigit_of_mem_toDigits⟩

theorem ofDigits_toDigits (n : Nat) : Text.ofDigits (Nat.toDigits 10 n) = n :=
  Nat.ofDigitChars_ten_toDigits

/-- The texts of an exponent: the letter is small or capital, a plus sign may be left out, and zeros
may stand in front. -/
inductive DerivesExponent : Option Int → List Char → Prop where
  | absent : DerivesExponent none []
  | bare {c : Char} {ds : List Char} : c = 'e' ∨ c = 'E' → IsDigits ds →
    DerivesExponent (some (Text.ofDigits ds)) (c :: ds)
  | plus {c : Char} {ds : List Char} : c = 'e' ∨ c = 'E' → IsDigits ds →
    DerivesExponent (some (Text.ofDigits ds)) (c :: '+' :: ds)
  | minus {c : Char} {ds : List Char} : c = 'e' ∨ c = 'E' → IsDigits ds →
    DerivesExponent (some (-(Text.ofDigits ds : Int))) (c :: '-' :: ds)

/-- The texts of the digits in front of the point: none but zero has a zero in front. -/
inductive DerivesWhole : Nat → List Char → Prop where
  | zero : DerivesWhole 0 ['0']
  | digits {ds : List Char} : IsDigits ds → ds.head? ≠ some '0' →
    DerivesWhole (Text.ofDigits ds) ds

/-- The text of the digits behind the point, with the point. -/
def point (places : List Char) : List Char := if places = [] then [] else '.' :: places

/-- There is nothing but digits behind the point of the number. -/
def Number.Proper (n : Number) : Prop := ∀ c ∈ n.places, c.isDigit = true

/-- The texts of a number without its sign. -/
inductive DerivesUnsigned (n : Number) : List Char → Prop where
  | mk {whole scale : List Char} : DerivesWhole n.whole whole → n.Proper →
    DerivesExponent n.exponent scale → DerivesUnsigned n (whole ++ (point n.places ++ scale))

/-- The texts of a number. -/
inductive DerivesNumber (n : Number) : List Char → Prop where
  | mk {s : List Char} : DerivesUnsigned n s →
    DerivesNumber n ((if n.negative then ['-'] else []) ++ s)

/-- The written form of an exponent. -/
def Number.scale (n : Number) : List Char :=
  match n.exponent with
  | none => []
  | some e => 'e' :: (if e < 0 then '-' else '+') :: Nat.toDigits 10 e.natAbs

theorem derivesExponent_scale (n : Number) : DerivesExponent n.exponent n.scale := by
  rw [Number.scale]
  cases n.exponent with
  | none => exact .absent
  | some e =>
    have hdigits := isDigits_toDigits e.natAbs
    have hvalue := ofDigits_toDigits e.natAbs
    by_cases he : e < 0
    · have habs : -(Text.ofDigits (Nat.toDigits 10 e.natAbs) : Int) = e := by omega
      have h := DerivesExponent.minus (.inl rfl) hdigits
      rw [habs] at h
      simpa only [if_pos he] using h
    · have habs : (Text.ofDigits (Nat.toDigits 10 e.natAbs) : Int) = e := by omega
      have h := DerivesExponent.plus (.inl rfl) hdigits
      rw [habs] at h
      simpa only [if_neg he] using h

/-- Only zero is written with a zero in front. -/
theorem eq_zero_of_head?_toDigits {n : Nat} (h : (Nat.toDigits 10 n).head? = some '0') : n = 0 := by
  induction n using Nat.strong_induction_on with
  | _ n ih =>
    by_cases hn : n < 10
    · have hall : ∀ n < 10, (Nat.toDigits 10 n).head? = some '0' → n = 0 := by decide
      exact hall n hn h
    · rw [Nat.toDigits_of_base_le (by decide) (Nat.le_of_not_lt hn),
        List.head?_append_of_ne_nil _ Nat.toDigits_ne_nil] at h
      have hzero := ih (n / 10) (by omega) h
      omega

theorem derivesWhole_toDigits (n : Nat) : DerivesWhole n (Nat.toDigits 10 n) := by
  by_cases hn : n = 0
  · subst hn
    exact .zero
  · have h := DerivesWhole.digits (isDigits_toDigits n) fun h => hn (eq_zero_of_head?_toDigits h)
    rwa [ofDigits_toDigits] at h

theorem Number.chars_eq (n : Number) :
    n.chars = (if n.negative then ['-'] else []) ++
      (Nat.toDigits 10 n.whole ++ (point n.places ++ n.scale)) := by
  rw [← List.append_assoc, ← List.append_assoc]
  rfl

/-- The written form of a number is a text of it. -/
theorem derivesNumber_chars (hn : n.Proper) : DerivesNumber n n.chars := by
  rw [Number.chars_eq]
  exact .mk (.mk (derivesWhole_toDigits n.whole) hn (derivesExponent_scale n))

theorem DerivesWhole.isDigits {n : Nat} (h : DerivesWhole n s) : IsDigits s := by
  cases h with
  | zero => exact isDigits_toDigits 0
  | digits hds => exact hds

/-- The text of a number without its sign begins with a digit. -/
theorem DerivesUnsigned.exists_eq_cons (h : DerivesUnsigned n s) :
    ∃ c u, s = c :: u ∧ c.isDigit = true := by
  obtain ⟨hwhole, -, -⟩ := h
  obtain ⟨c, u, rfl, hc⟩ := hwhole.isDigits.exists_eq_cons
  exact ⟨c, _, List.cons_append, hc⟩

/-- The text of a number begins with a digit or a minus sign. -/
theorem DerivesNumber.exists_eq_cons (h : DerivesNumber n s) :
    ∃ c u, s = c :: u ∧ (c = '-' ∨ c.isDigit = true) := by
  obtain ⟨h⟩ := h
  cases n.negative with
  | true => exact ⟨'-', _, rfl, .inl rfl⟩
  | false =>
    obtain ⟨c, u, rfl, hc⟩ := h.exists_eq_cons
    exact ⟨c, u, rfl, .inr hc⟩

/-! ### Reading -/

/-- The text does not go on with digits. -/
def EndsDigits (rest : List Char) : Prop := ∀ c ∈ rest.head?, c.isDigit = false

/-- The text does not go on with a number that stands in front of it. -/
def EndsNumber (rest : List Char) : Prop :=
  ∀ c ∈ rest.head?, c.isDigit = false ∧ c ≠ '.' ∧ c ≠ 'e' ∧ c ≠ 'E'

theorem EndsNumber.endsDigits (h : EndsNumber rest) : EndsDigits rest := fun c hc => (h c hc).1

theorem readDigits_append (hds : IsDigits ds) (hrest : EndsDigits rest) :
    readDigits (ds ++ rest) = some (ds, rest) := by
  have hstop : rest.takeWhile Char.isDigit = [] ∧ rest.dropWhile Char.isDigit = rest := by
    cases rest with
    | nil => exact ⟨rfl, rfl⟩
    | cons c rest => simp [hrest c rfl]
  have hspan : (ds ++ rest).span Char.isDigit = (ds, rest) := by
    rw [List.span_eq_takeWhile_dropWhile, List.takeWhile_append_of_pos hds.2,
      List.dropWhile_append_of_pos hds.2, hstop.1, hstop.2, List.append_nil]
  obtain ⟨c, u, rfl, -⟩ := hds.exists_eq_cons
  rw [readDigits, hspan]

theorem readWhole_of_derives {n : Nat} (h : DerivesWhole n s) (hrest : EndsDigits rest) :
    readWhole (s ++ rest) = some (n, rest) := by
  cases h with
  | zero => rfl
  | digits hds hzero =>
    have hread := readDigits_append hds hrest
    obtain ⟨c, u, rfl, -⟩ := hds.exists_eq_cons
    rw [readWhole, hread]
    · rfl
    · intro _ heq
      exact hzero (congrArg some (List.cons.inj heq).1)

theorem readPlaces_append {places : List Char} (hplaces : ∀ c ∈ places, c.isDigit = true)
    (hdigits : EndsDigits rest) (hpoint : rest.head? ≠ some '.') :
    readPlaces (point places ++ rest) = some (places, rest) := by
  rw [point]
  by_cases hnil : places = []
  · subst hnil
    rw [if_pos rfl, List.nil_append, readPlaces]
    rintro rest' rfl
    exact hpoint rfl
  · rw [if_neg hnil, List.cons_append, readPlaces]
    exact readDigits_append ⟨hnil, hplaces⟩ hdigits

/-- Digits are the exponent that has no sign. -/
theorem readScale_append (hds : IsDigits ds) (hrest : EndsDigits rest) :
    readScale (ds ++ rest) = some ((Text.ofDigits ds : Int), rest) := by
  have hread := readDigits_append hds hrest
  obtain ⟨c, u, rfl, hc⟩ := hds.exists_eq_cons
  rw [readScale, hread]
  · rfl
  all_goals
    intro _ h
    exact ne_of_isDigit hc (by decide) (List.cons.inj h).1

theorem readExponent_cons {c : Char} (hc : c = 'e' ∨ c = 'E') (s : List Char) :
    readExponent (c :: s) = (readScale s).map fun (e, rest) => (some e, rest) := by
  rcases hc with rfl | rfl <;> rfl

theorem readExponent_of_derives (h : DerivesExponent e s) (hrest : EndsNumber rest) :
    readExponent (s ++ rest) = some (e, rest) := by
  cases h with
  | absent =>
    rw [List.nil_append, readExponent]
    · rintro rest' rfl
      exact (hrest 'e' rfl).2.2.1 rfl
    · rintro rest' rfl
      exact (hrest 'E' rfl).2.2.2 rfl
  | bare hc hds =>
    rw [List.cons_append, readExponent_cons hc, readScale_append hds hrest.endsDigits,
      Option.map_some]
  | plus hc hds | minus hc hds =>
    rw [List.cons_append, readExponent_cons hc, List.cons_append, readScale,
      readDigits_append hds hrest.endsDigits]
    rfl

/-- The text of an exponent is no part of the digits in front of it. -/
theorem DerivesExponent.endsDigits (h : DerivesExponent e s) (hrest : EndsNumber rest) :
    EndsDigits (s ++ rest) ∧ (s ++ rest).head? ≠ some '.' := by
  have hcons {c : Char} {u : List Char} (hc : c = 'e' ∨ c = 'E') :
      EndsDigits (c :: u ++ rest) ∧ (c :: u ++ rest).head? ≠ some '.' := by
    refine ⟨fun d hd => ?_, ?_⟩
    · obtain rfl := Option.some.inj hd
      rcases hc with rfl | rfl <;> decide
    · rcases hc with rfl | rfl <;> simp
  cases h with
  | absent => exact ⟨hrest.endsDigits, fun h => (hrest '.' h).2.1 rfl⟩
  | bare hc | plus hc | minus hc => exact hcons hc

/-- A number is read back from each of its texts, without its sign. -/
theorem readNumber_of_derives (h : DerivesUnsigned n s) (hrest : EndsNumber rest) :
    readNumber n.negative (s ++ rest) = some (number n, rest) := by
  obtain @⟨whole, scale, hwhole, hn, hscale⟩ := h
  obtain ⟨hdigits, hpoint⟩ := hscale.endsDigits hrest
  have hplaces : EndsDigits (point n.places ++ (scale ++ rest)) := by
    rw [point]
    split
    · exact hdigits
    · intro c hc
      rw [← Option.some.inj hc]
      decide
  rw [List.append_assoc, List.append_assoc]
  simp only [readNumber, readWhole_of_derives hwhole hplaces, readPlaces_append hn hdigits hpoint,
    readExponent_of_derives hscale hrest, Option.bind_eq_bind, Option.bind_some]
  rfl

theorem readScalar_of_isDigit {c : Char} {u : List Char} (hc : c.isDigit = true) :
    readScalar (c :: u) = readNumber false (c :: u) := by
  rw [readScalar]
  all_goals
    intro _ h
    exact ne_of_isDigit hc (by decide) (List.cons.inj h).1

/-- A number is read back from each of its texts. -/
theorem readScalar_of_derives (h : DerivesNumber n s) (hrest : EndsNumber rest) :
    readScalar (s ++ rest) = some (number n, rest) := by
  obtain ⟨h⟩ := h
  have hread := readNumber_of_derives h hrest
  obtain ⟨c, u, rfl, hc⟩ := h.exists_eq_cons
  cases hsign : n.negative with
  | true =>
    rw [hsign] at hread
    exact hread
  | false =>
    rw [hsign] at hread
    exact (readScalar_of_isDigit hc).trans hread

end ScriptBlocks.Json
