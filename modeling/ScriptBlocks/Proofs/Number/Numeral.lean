import Mathlib.Data.List.TakeDrop
import ScriptBlocks.Dialect.Basic
import ScriptBlocks.Number.Literal
import ScriptBlocks.Proofs.Text.Class

/-!
# Numerals

A number is written with digits, with a sign in front if it is negative and with a point before the
places if there are any. An integer of fewer than 53 bits is a binary64 number, so a numeral of at
most fifteen digits is read as the integer that it names, whatever its sign.

## Main definitions

* `Text.IsNumeral` — the texts of numbers

## Main statements

* `Value.isNumeral_toText` — the text of a finite number is a numeral
* `Binary64.toInt?_ofDecimal` — small integers are read exactly
* `Dialect.number_toString` — a small integer is read off its text
-/

namespace ScriptBlocks

/-! ### The texts of numbers -/

/-- Digits, with a sign in front if `negative`, and with a point and more digits behind it unless
there are no places. -/
structure Text.IsNumeral (s : List Char) (negative : Bool) (whole places : List Char) : Prop where
  eq : s = (if negative then ['-'] else []) ++
    (whole ++ if places = [] then [] else '.' :: places)
  whole_ne_nil : whole ≠ []
  isDigit {c : Char} : c ∈ whole ∨ c ∈ places → c.isDigit = true

theorem isDigit_of_mem_toDigits {n : Nat} {c : Char} (h : c ∈ Nat.toDigits 10 n) :
    c.isDigit = true :=
  Nat.isDigit_of_mem_toDigits (by decide) (by decide) h

theorem toList_toString_nat (n : Nat) : (toString n).toList = Nat.toDigits 10 n :=
  Nat.toList_repr

theorem toList_toString_int (i : Int) :
    (toString i).toList = (if i < 0 then ['-'] else []) ++ Nat.toDigits 10 i.natAbs := by
  change i.repr.toList = _
  rw [Int.repr_eq_if]
  by_cases h : 0 ≤ i
  · have habs : i.toNat = i.natAbs := by omega
    rw [if_pos h, if_neg (by omega), habs]
    exact Nat.toList_repr
  · have habs : (-i).toNat = i.natAbs := by omega
    rw [if_neg h, if_pos (by omega), habs, String.toList_append, Nat.toList_repr]
    rfl

theorem Text.isNumeral_toString (i : Int) :
    Text.IsNumeral (toString i).toList (i < 0) (Nat.toDigits 10 i.natAbs) [] where
  eq := by
    rw [toList_toString_int, if_pos rfl, List.append_nil]
    simp only [decide_eq_true_eq]
  whole_ne_nil := Nat.toDigits_ne_nil
  isDigit h := isDigit_of_mem_toDigits (h.resolve_right List.not_mem_nil)

theorem Text.isNumeral_of_digits (negative : Bool) {ds : List Char}
    (hds : ∀ c ∈ ds, c.isDigit = true) (hne : ds ≠ []) :
    Text.IsNumeral ((if negative then ['-'] else []) ++ ds) negative ds [] where
  eq := by rw [if_pos rfl, List.append_nil]
  whole_ne_nil := hne
  isDigit h := hds _ (h.resolve_right List.not_mem_nil)

/-- What follows the sign is plain. -/
theorem Text.IsNumeral.plain {s whole places : List Char} {negative : Bool}
    (h : Text.IsNumeral s negative whole places) :
    ∃ u, s = (if negative then ['-'] else []) ++ u ∧ u ≠ [] ∧
      ∀ c ∈ u, Text.isPlain c = true := by
  have hdigit {c : Char} (hc : c.isDigit = true) : Text.isPlain c = true :=
    Text.isPlain_of_isDigit (Text.isDigit_of_ascii hc)
  refine ⟨_, h.eq, List.append_ne_nil_of_left_ne_nil h.whole_ne_nil _, fun c hc => ?_⟩
  rcases List.mem_append.1 hc with hc | hc
  · exact hdigit (h.isDigit (.inl hc))
  · split at hc
    · exact absurd hc List.not_mem_nil
    · rcases List.mem_cons.1 hc with rfl | hc
      · decide
      · exact hdigit (h.isDigit (.inr hc))

/-- A decimal written without an exponent is digits before and after its point. -/
theorem Decimal.positional_spec (d : Decimal) :
    d.positional.1 ≠ [] ∧ ∀ c, c ∈ d.positional.1 ∨ c ∈ d.positional.2 → c.isDigit = true := by
  have hdigits : Nat.toDigits 10 d.digits ≠ [] := Nat.toDigits_ne_nil
  rw [positional]
  split
  · refine ⟨List.append_ne_nil_of_left_ne_nil hdigits _, fun c hc => ?_⟩
    rcases List.mem_append.1 (hc.resolve_right List.not_mem_nil) with hc | hc
    · exact isDigit_of_mem_toDigits hc
    · rw [(List.mem_replicate.1 hc).2]
      decide
  · simp only
    split
    · next hplaces =>
      refine ⟨fun hnil => ?_, fun c hc => ?_⟩
      · rw [List.take_eq_nil_iff] at hnil
        rcases hnil with hnil | hnil
        · omega
        · exact hdigits hnil
      · rcases hc with hc | hc
        · exact isDigit_of_mem_toDigits (List.mem_of_mem_take hc)
        · exact isDigit_of_mem_toDigits (List.mem_of_mem_drop hc)
    · refine ⟨List.cons_ne_nil _ _, fun c hc => ?_⟩
      rcases hc with hc | hc
      · rw [List.mem_singleton.1 hc]
        decide
      · rcases List.mem_append.1 hc with hc | hc
        · rw [(List.mem_replicate.1 hc).2]
          decide
        · exact isDigit_of_mem_toDigits hc

theorem Binary64.isNumeral_toText (negative : Bool) (e : Fin 2047) (f : Fin fractionLimit) :
    ∃ whole places,
      Text.IsNumeral (toText (.finite negative e f)).toList negative whole places := by
  have hsign : (if negative then "-" else "").toList = if negative then ['-'] else [] := by
    cases negative <;> rfl
  rw [toText]
  by_cases hzero : significand e f = 0
  · refine ⟨['0'], [], ?_, List.cons_ne_nil _ _, fun h => ?_⟩
    · rw [if_pos hzero, String.toList_append, hsign]
      rfl
    · rw [List.mem_singleton.1 (h.resolve_right List.not_mem_nil)]
      decide
  · obtain ⟨hne, hdigits⟩ := (shortest .up e f).positional_spec
    refine ⟨_, _, ?_, hne, fun h => hdigits _ h⟩
    rw [if_neg hzero, String.toList_append, hsign, String.toList_ofList]
    by_cases hplaces : (shortest .up e f).positional.2 = []
    · rw [if_pos hplaces, if_pos hplaces, List.append_nil]
    · rw [if_neg hplaces, if_neg hplaces]

/-- The text of a finite number is a numeral. -/
theorem Value.isNumeral_toText {value : Value}
    (h : (∃ i, value = .int i) ∨ ∃ negative e f, value = .float (.finite negative e f)) :
    ∃ negative whole places, Text.IsNumeral value.toText.toList negative whole places := by
  rcases h with ⟨i, rfl⟩ | ⟨negative, e, f, rfl⟩
  · exact ⟨_, _, _, Text.isNumeral_toString i.toInt⟩
  · exact ⟨negative, Binary64.isNumeral_toText negative e f⟩

/-! ### Reading integers -/

namespace Binary64

theorem floorLog2_one {n : Nat} (hn : n ≠ 0) : floorLog2 n 1 = n.log2 := by
  have hlog : (1 : Nat).log2 = 0 := by decide
  have hle : 1 <<< n.log2 ≤ n := by
    rw [Nat.shiftLeft_eq, Nat.one_mul]
    exact Nat.log2_self_le hn
  simp [floorLog2, hlog, hle]

theorem roundDiv_one (n : Nat) : roundDiv n 1 = n := by
  simp [roundDiv, Nat.mod_one]

/-- A positive integer below `2 ^ 52` is a number of the format. -/
theorem toInt?_ofQuotient_one (negative : Bool) {n : Nat} (hn : n ≠ 0) (hlt : n < fractionLimit) :
    (ofQuotient negative n 1).toInt? = some (if negative then -(n : Int) else n) := by
  obtain ⟨k, hk⟩ : ∃ k, n.log2 = k := ⟨_, rfl⟩
  have hlog : k < 52 := by
    rw [← hk]
    exact (Nat.log2_lt hn).2 hlt
  have hlow : 2 ^ k ≤ n := hk ▸ Nat.log2_self_le hn
  have hhigh : n < 2 ^ (k + 1) := hk ▸ Nat.lt_log2_self
  -- The significand is the integer, moved up until it has its leading bit.
  obtain ⟨m, hm⟩ : ∃ m, n * 2 ^ (52 - k) = m := ⟨_, rfl⟩
  have hmlow : fractionLimit ≤ m := by
    have hpow : 2 ^ k * 2 ^ (52 - k) = fractionLimit := by
      rw [← Nat.pow_add, Nat.add_sub_cancel' (Nat.le_of_lt hlog)]
    rw [← hm, ← hpow]
    exact Nat.mul_le_mul_right _ hlow
  have hmhigh : m < 2 * fractionLimit := by
    have hpow : 2 ^ (k + 1) * 2 ^ (52 - k) = 2 * fractionLimit := by
      rw [← Nat.pow_add, show k + 1 + (52 - k) = 53 by omega]
      rfl
    rw [← hm, ← hpow]
    exact Nat.mul_lt_mul_of_pos_right hhigh (Nat.two_pow_pos _)
  have hscale : max (floorLog2 n 1 - 52) (-1074) = (k : Int) - 52 := by
    rw [floorLog2_one hn, hk]
    omega
  have hneg : ¬ (0 : Int) ≤ (k : Int) - 52 := by omega
  have hshift : (-((k : Int) - 52)).toNat = 52 - k := by omega
  have hfield : ((k : Int) - 52 + 1075).toNat = k + 1023 := by omega
  have hof : ofQuotient negative n 1 = finite negative ⟨k + 1023, by omega⟩
      ⟨m - fractionLimit, by omega⟩ := by
    rw [ofQuotient, if_neg hn]
    simp only [hscale]
    rw [if_neg hneg, hshift, roundDiv_one, Nat.shiftLeft_eq, hm, hfield, ofFields,
      dif_neg (Nat.not_lt.2 hmlow), dif_pos hmhigh, dif_pos (by omega)]
  have hsignificand : significand ⟨k + 1023, by omega⟩ ⟨m - fractionLimit, by omega⟩ = m := by
    rw [significand, if_neg (by simp [Fin.ext_iff])]
    exact Nat.add_sub_cancel' hmlow
  have hscale' : scale ⟨k + 1023, by omega⟩ = (k : Int) - 52 := by
    rw [scale]
    simp only
    omega
  have hmod : m % 2 ^ (52 - k) = 0 := by
    rw [← hm]
    exact Nat.mul_mod_left _ _
  have hdiv : m / 2 ^ (52 - k) = n := by
    rw [← hm]
    exact Nat.mul_div_cancel _ (Nat.two_pow_pos _)
  simp only [hof, toInt?, hsignificand, hscale', hneg, hshift, Nat.shiftLeft_eq, Nat.one_mul, hmod,
    Nat.shiftRight_eq_div_pow, hdiv, if_false, if_true]
  rfl

/-- An integer of at most fifteen digits is read exactly. -/
theorem toInt?_ofDecimal (negative : Bool) {n : Nat} (hn : n < powerOfTen 15) :
    (ofDecimal negative n 0).toInt? = some (if negative then -(n : Int) else n) := by
  have hlt : n < fractionLimit := Nat.lt_trans hn (by decide)
  rw [ofDecimal]
  by_cases hzero : n = 0
  · subst hzero
    cases negative <;> decide +kernel
  · have hlength : decimalLength n ≤ 15 := (Nat.length_toDigits_le_iff (by decide) (by decide)).2 hn
    have hmagnitude : ¬ (n = 0 ∨ ((decimalLength n : Int) + 0) < -330) := by omega
    have hhigh : ¬ 310 < (decimalLength n : Int) + 0 := by omega
    rw [if_neg hmagnitude, if_neg hhigh, if_pos (Int.le_refl 0), Int.toNat_zero, powerOfTen_zero,
      Nat.mul_one]
    exact toInt?_ofQuotient_one negative hzero hlt

end Binary64

namespace Text

variable {ds : List Char}

theorem isPlain_of_ascii_digit {c : Char} (h : c.isDigit = true) : isPlain c = true :=
  isPlain_of_isDigit (isDigit_of_ascii h)

theorem splitSign_of_digits (hds : ∀ c ∈ ds, c.isDigit = true) : splitSign ds = (false, ds) := by
  cases ds with
  | nil => rfl
  | cons c ds =>
    have hc := hds c List.mem_cons_self
    rw [splitSign]
    · intro _ h
      rw [(List.cons.inj h).1] at hc
      exact nomatch hc
    · intro _ h
      rw [(List.cons.inj h).1] at hc
      exact nomatch hc

theorem toLower_of_isDigit {c : Char} (h : c.isDigit = true) : c.toLower = c := by
  simp only [Char.isDigit, Bool.and_eq_true, decide_eq_true_eq, UInt32.le_iff_toNat_le] at h
  refine dif_neg ?_
  rintro ⟨hupper, -⟩
  have hle : (65 : UInt32).toNat ≤ (57 : UInt32).toNat :=
    Nat.le_trans (UInt32.le_iff_toNat_le.1 hupper) h.2
  exact absurd hle (by decide)

theorem spanDigits_of_digits (hds : ∀ c ∈ ds, c.isDigit = true) : spanDigits ds = (ds, []) := by
  rw [spanDigits, List.span_eq_takeWhile_dropWhile, List.takeWhile_eq_self_iff.2 hds,
    List.dropWhile_eq_nil_iff.2 hds]

theorem readUnsigned_of_digits (negative : Bool) (hds : ∀ c ∈ ds, c.isDigit = true)
    (hne : ds ≠ []) : readUnsigned negative ds = some (.ofDecimal negative (ofDigits ds) 0) := by
  simp only [readUnsigned, spanDigits_of_digits hds, spanFraction, hne, false_and, if_false,
    readExponent, List.append_nil]
  rfl

/-- Digits are read as the number that they name, rounded to the format. -/
theorem readDecimal_of_digits (negative : Bool) (hds : ∀ c ∈ ds, c.isDigit = true)
    (hne : ds ≠ []) : readDecimal ((if negative then ['-'] else []) ++ ds) =
      some (.ofDecimal negative (ofDigits ds) 0) := by
  have hsign : splitSign ((if negative then ['-'] else []) ++ ds) = (negative, ds) := by
    cases negative with
    | false => exact splitSign_of_digits hds
    | true => rfl
  have hlower : ds.map Char.toLower = ds := by
    refine (List.map_congr_left fun c hc => ?_).trans (List.map_id ds)
    exact toLower_of_isDigit (hds c hc)
  have hword (word : List Char) (hmem : ∃ c ∈ word, c.isDigit = false) :
      String.ofList ds ≠ String.ofList word := by
    intro heq
    obtain ⟨c, hc, hdigit⟩ := hmem
    rw [← String.ofList_injective heq] at hc
    exact nomatch (hds c hc).symm.trans hdigit
  have hinf : String.ofList ds ≠ "inf" := hword ['i', 'n', 'f'] ⟨'i', by decide⟩
  have hinfinity : String.ofList ds ≠ "infinity" :=
    hword ['i', 'n', 'f', 'i', 'n', 'i', 't', 'y'] ⟨'i', by decide⟩
  have hnan : String.ofList ds ≠ "nan" := hword ['n', 'a', 'n'] ⟨'n', by decide⟩
  rw [readDecimal, hsign]
  simp only [hlower]
  exact readUnsigned_of_digits negative hds hne

/-- A run of digits is read as long as the number that it names is in range: on the way to it the
number only grows. -/
theorem readIntegerFrom_of_digits {acc : Nat} (hds : ∀ c ∈ ds, c.isDigit = true)
    (h : Nat.ofDigitChars 10 ds acc < integerLimit) :
    readIntegerFrom acc ds = .ok (Nat.ofDigitChars 10 ds acc) := by
  induction ds generalizing acc with
  | nil => rfl
  | cons c ds ih =>
    obtain ⟨hc, hds⟩ := List.forall_mem_cons.1 hds
    have hdigit : digitValue? c = some (c.toNat - '0'.toNat) := if_pos hc
    rw [Nat.ofDigitChars_cons] at h ⊢
    have hgrows : 10 * acc + (c.toNat - '0'.toNat) < integerLimit := by
      refine Nat.lt_of_le_of_lt ?_ h
      rw [Nat.ofDigitChars_eq_ofDigitChars_zero]
      exact Nat.le_add_right_of_le (Nat.le_mul_of_pos_left _ (Nat.pow_pos (by decide)))
    rw [readIntegerFrom, hdigit]
    simp only [if_pos hgrows]
    exact ih hds h

/-- What is read is in range. -/
theorem lt_of_readIntegerFrom {acc n : Nat} {s : List Char} (hacc : acc < integerLimit)
    (h : readIntegerFrom acc s = .ok n) : n < integerLimit := by
  induction s generalizing acc with
  | nil => rwa [← Except.ok.inj h]
  | cons c s ih =>
    rw [readIntegerFrom] at h
    split at h
    · cases h
    · split at h
      · next hlt => exact ih hlt h
      · cases h

theorem readInteger_toDigits {n : Nat} (hn : n < integerLimit) :
    readInteger (Nat.toDigits 10 n) = .ok (.ofNat n) := by
  have hread : Nat.ofDigitChars 10 (Nat.toDigits 10 n) 0 = n := Nat.ofDigitChars_ten_toDigits
  rw [readInteger, readIntegerFrom_of_digits (fun _ => isDigit_of_mem_toDigits) (by rwa [hread]),
    hread]
  rfl

end Text

/-- Digits with a sign in front are read as the number that they name, rounded to the format. -/
theorem Dialect.number_of_digits (negative : Bool) {ds : List Char}
    (hds : ∀ c ∈ ds, c.isDigit = true) (hne : ds ≠ []) :
    Dialect.number (.ofList ((if negative then ['-'] else []) ++ ds)) =
      .ok (.ofNumber (powerOfTen 15) (.ofDecimal negative (Text.ofDigits ds) 0)) := by
  have htrim : Text.trim ((if negative then ['-'] else []) ++ ds) =
      (if negative then ['-'] else []) ++ ds := by
    refine Text.trim_of_trimmed ⟨fun {c} hc => ?_, fun {c} hc => ?_⟩
    · rcases List.mem_append.1 (List.mem_of_mem_head? hc) with hc | hc
      · cases negative with
        | false => exact absurd hc List.not_mem_nil
        | true =>
          rw [List.mem_singleton.1 hc]
          decide
      · exact (Text.isPlain_iff.1 (Text.isPlain_of_ascii_digit (hds c hc))).2
    · rw [List.getLast?_append_of_ne_nil _ hne] at hc
      exact (Text.isPlain_iff.1
        (Text.isPlain_of_ascii_digit (hds c (List.mem_of_mem_getLast? hc)))).2
  rw [Dialect.number, String.toList_ofList, htrim, Text.readDecimal_of_digits negative hds hne]

/-- A numeral of at most fifteen digits is read as the integer that it names. -/
theorem Dialect.number_toDigits (negative : Bool) {n : Nat} (hn : n < powerOfTen 15) :
    Dialect.number (.ofList ((if negative then ['-'] else []) ++ Nat.toDigits 10 n)) =
      .ok (.int (.ofInt (if negative then -(n : Int) else n))) := by
  have hread : Text.ofDigits (Nat.toDigits 10 n) = n := Nat.ofDigitChars_ten_toDigits
  rw [Dialect.number_of_digits negative (fun _ => isDigit_of_mem_toDigits) Nat.toDigits_ne_nil,
    hread]
  simp only [Value.ofNumber, Binary64.toInt?_ofDecimal negative hn]
  rw [if_pos]
  cases negative <;> simpa using hn

theorem Value.toText_ofInt {i : Int} (hi : i.natAbs < powerOfTen 15) :
    (Value.int (.ofInt i)).toText = toString i := by
  have hlimit : i.natAbs < 9223372036854775808 := Nat.lt_trans hi (by decide)
  have hrange : (Int64.ofInt i).toInt = i :=
    Int64.toInt_ofInt_of_le (by omega) (by omega)
  rw [Value.toText, hrange]

/-- A small integer is read off its own text. -/
theorem Dialect.number_toString {i : Int} (hi : i.natAbs < powerOfTen 15) :
    Dialect.number (toString i) = .ok (.int (.ofInt i)) := by
  have hread := Dialect.number_toDigits (i < 0) hi
  have htext : toString i = .ofList ((if i < 0 then ['-'] else []) ++ Nat.toDigits 10 i.natAbs) := by
    rw [← toList_toString_int, String.ofList_toList]
  have habs : (if i < 0 then -(i.natAbs : Int) else i.natAbs) = i := by omega
  simp only [decide_eq_true_eq] at hread
  rw [htext, hread, habs]

end ScriptBlocks
