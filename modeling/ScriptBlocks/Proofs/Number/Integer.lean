import ScriptBlocks.Proofs.Number.Shortest

/-!
# Integers in source text

An integer in the source is read as the nearest number of the format and written again as the best
of the integers that are read as that number. So an integer comes back just if it is the best
itself, as all integers of at most fifteen digits are.

## Main definitions

* `Binary64.IsPreferred` — the integer is the best of those that are read as the same number

## Main statements

* `Binary64.isPreferred_of_lt` — integers that the format has
* `Binary64.isPreferred_of_digits` — integers of few digits before their zeros
* `Dialect.exists_number_toString` — which integers are read as a value with the same text
-/

namespace ScriptBlocks

namespace Binary64

variable {negative : Bool} {e : Fin 2047} {f : Fin fractionLimit} {n m v : Nat}

/-- The integer is read as a finite number, and is the best text of all that are read as it. -/
def IsPreferred (n : Nat) : Prop := ∃ v : Nat, (ofDecimal false n 0).toInt? = some (v : Int) ∧
  ∀ m, ofDecimal false m 0 = ofDecimal false n 0 → m ≠ n → Better v n m

theorem Better.asymm (h : Better v n m) (hne : m ≠ n) : ¬ Better v m n := by
  rintro (⟨j, hjm, hjn⟩ | ⟨hzeros', hnearer'⟩)
  · rcases h with ⟨k, hkn, hkm⟩ | ⟨hzeros, -⟩
    · rcases Nat.le_total j k with hjk | hkj
      · exact hjn ((Nat.pow_dvd_pow 10 hjk).trans hkn)
      · exact hkm ((Nat.pow_dvd_pow 10 hkj).trans hjm)
    · exact hjn (hzeros j hjm)
  · rcases h with ⟨k, hkn, hkm⟩ | ⟨-, hnearer⟩
    · exact hkm (hzeros' k hkn)
    · unfold Nearer at hnearer hnearer'
      omega

/-! ### Exact values -/

/-- The integer that a finite number is, but for its sign. -/
def whole? (e : Fin 2047) (f : Fin fractionLimit) : Option Nat :=
  let m := significand e f
  let shift := (-(scale e)).toNat
  if 0 ≤ scale e then some (m <<< (scale e).toNat)
  else if m % (1 <<< shift) = 0 then some (m >>> shift)
  else none

theorem toInt?_finite : (finite negative e f).toInt? =
    (whole? e f).map fun n : Nat => if negative then -(n : Int) else (n : Int) := by
  change ((whole? e f) >>= fun n => pure (n : Int)).map _ = _
  cases whole? e f with
  | none => rfl
  | some n => rfl

theorem whole?_eq_some_iff : whole? e f = some v ↔ (v : ℚ) = exact e f := by
  have hpos : (0 : ℚ) < 2 ^ (-(scale e)).toNat := by positivity
  rw [whole?, exact, two_zpow, ← mul_div_assoc, eq_div_iff hpos.ne']
  norm_cast
  by_cases hscale : 0 ≤ scale e
  · have hzero : (-(scale e)).toNat = 0 := by omega
    rw [if_pos hscale, hzero, Nat.pow_zero, Nat.mul_one, Option.some_inj, Nat.shiftLeft_eq, eq_comm]
  · have hzero : (scale e).toNat = 0 := by omega
    have hpos := Nat.two_pow_pos (-(scale e)).toNat
    rw [if_neg hscale, hzero, Nat.pow_zero, Nat.mul_one, Nat.shiftLeft_eq, Nat.one_mul,
      Nat.shiftRight_eq_div_pow]
    constructor
    · intro h
      split at h
      · next hmod =>
        rw [← Option.some.inj h, Nat.div_mul_cancel (Nat.dvd_of_mod_eq_zero hmod)]
      · cases h
    · intro h
      rw [← h, Nat.mul_mod_left, if_pos rfl, Nat.mul_div_cancel _ hpos]

/-- A number below `2 ^ 52` is read exactly, and one from there on as an integer. -/
theorem exists_exact (hn : n ≠ 0) (h : ofDecimal negative n 0 = finite negative e f) :
    0 < e.val ∧ ∃ v : Nat, (v : ℚ) = exact e f ∧ (v = n ∨ fractionLimit ≤ v) := by
  have hround : ofQuotient negative n 1 = finite negative e f := by
    rw [ofDecimal] at h
    split at h
    · next hzero => omega
    · split at h
      · cases h
      · rwa [if_pos (Int.le_refl 0), Int.toNat_zero, powerOfTen_zero, Nat.mul_one] at h
  have he : 0 < e.val := by
    rcases (ofQuotient_one_eq_finite_iff hn).1 hround with ⟨h, -⟩ | ⟨h, -⟩ <;> omega
  refine ⟨he, ?_⟩
  by_cases hlt : n < fractionLimit
  · have hexact := toInt?_ofQuotient_one negative hn hlt
    rw [hround, toInt?_finite] at hexact
    obtain ⟨v, hv, hsign⟩ := Option.map_eq_some_iff.1 hexact
    refine ⟨v, whole?_eq_some_iff.1 hv, .inl ?_⟩
    split at hsign <;> omega
  · have hlog : 52 ≤ n.log2 := (Nat.le_log2 hn).2 (Nat.not_lt.1 hlt)
    have hscale : 0 ≤ scale e := by
      rw [scale_of_pos he]
      rcases (ofQuotient_one_eq_finite_iff hn).1 hround with ⟨h, -⟩ | ⟨h, -⟩ <;> omega
    have hwhole : whole? e f = some (significand e f <<< (scale e).toNat) := if_pos hscale
    refine ⟨_, whole?_eq_some_iff.1 hwhole, .inr ?_⟩
    rw [Nat.shiftLeft_eq, significand_of_pos he]
    exact Nat.le_trans (Nat.le_add_right _ _) (Nat.le_mul_of_pos_right _ (Nat.two_pow_pos _))

theorem ofFields_cases (E m : Nat) : (∃ e f, ofFields negative E m = finite negative e f) ∨
    ofFields negative E m = infinite negative := by
  rw [ofFields]
  split
  · exact .inl ⟨_, _, rfl⟩
  · split <;> split <;> first | exact .inl ⟨_, _, rfl⟩ | exact .inr rfl

theorem ofDecimal_cases (negative : Bool) (n : Nat) :
    (∃ e f, ofDecimal negative n 0 = finite negative e f) ∨
      ofDecimal negative n 0 = infinite negative := by
  rw [ofDecimal]
  split
  · exact .inl ⟨0, 0, rfl⟩
  · split
    · exact .inr rfl
    · rw [if_pos (Int.le_refl 0), ofQuotient]
      split
      · exact .inl ⟨0, 0, rfl⟩
      · exact ofFields_cases _ _

theorem ofDecimal_ne_zero (hn : n ≠ 0) : ofDecimal negative n 0 ≠ ofDecimal negative 0 0 := by
  intro h
  have hzero : ofDecimal negative 0 0 = finite negative 0 0 := by
    rw [ofDecimal, if_pos (.inl rfl)]
  exact absurd (exists_exact hn (h.trans hzero)).1 (Nat.lt_irrefl 0)

/-! ### The text of an integer -/

theorem toDigits_mul_ten_pow (hn : n ≠ 0) (k : Nat) :
    Nat.toDigits 10 (n * 10 ^ k) = Nat.toDigits 10 n ++ List.replicate k '0' := by
  induction k with
  | zero => rw [Nat.pow_zero, Nat.mul_one, List.replicate_zero, List.append_nil]
  | succ k ih =>
    have hpos : 0 < n * 10 ^ k := Nat.mul_pos (Nat.pos_of_ne_zero hn) (Nat.pow_pos (by decide))
    rw [List.replicate_succ', ← List.append_assoc, ← ih,
      show ['0'] = Nat.toDigits 10 0 from (Nat.toDigits_zero 10).symm,
      Nat.toDigits_append_toDigits (by decide) hpos (by decide), Nat.pow_succ]
    congr 1
    ring

theorem positional_of_nonneg {d : Decimal} {k : Nat} (hk : d.exponent = k) (hd : d.digits ≠ 0) :
    d.positional = (Nat.toDigits 10 (d.digits * 10 ^ k), []) := by
  have hnonneg : 0 ≤ d.exponent := by omega
  rw [Decimal.positional, toDigits_mul_ten_pow hd]
  simp only [hnonneg, if_true]
  rw [hk, Int.toNat_natCast]

/-- An integer that is read as a finite number gives the best of the integers that are read as it. -/
theorem exists_toText (hn : n ≠ 0) (h : ofDecimal negative n 0 = finite negative e f)
    (hv : (v : ℚ) = exact e f) (hpos : 0 < v) :
    ∃ m, toText (ofDecimal negative n 0) =
        (if negative then "-" else "") ++ String.ofList (Nat.toDigits 10 m) ∧
      (m = n ↔ ∀ x, x ≠ 0 → ofDecimal negative x 0 = ofDecimal negative n 0 → x ≠ n →
        Better v n x) := by
  obtain ⟨he, -⟩ := exists_exact hn h
  obtain ⟨m, k, hk, hd, hm, hcontains, hbetter⟩ := shortest_spec he hv hpos
  have hsignificand : significand e f ≠ 0 := by
    rw [significand_of_pos he]
    omega
  have hm0 : m ≠ 0 := by
    rw [← hm]
    exact Nat.mul_ne_zero hd (Nat.ne_of_gt (Nat.pow_pos (by decide)))
  refine ⟨m, ?_, ?_⟩
  · rw [h, toText, if_neg hsignificand, positional_of_nonneg hk hd, hm]
    rfl
  · rw [h]
    constructor
    · rintro rfl x hx hread hne
      exact hbetter x ((ofDecimal_eq_finite_iff hx he).1 hread) hne
    · intro hall
      by_contra hne
      have hread : ofDecimal negative m 0 = finite negative e f :=
        (ofDecimal_eq_finite_iff hm0 he).2 hcontains
      have hn' := (ofDecimal_eq_finite_iff hn he).1 h
      exact (hall m hm0 hread hne).asymm hne (hbetter n hn' (Ne.symm hne))

/-- The sign has no part in which numbers are read as one. -/
theorem ofDecimal_eq_finite_sign (hn : n ≠ 0) (negative' : Bool)
    (h : ofDecimal negative n 0 = finite negative e f) :
    ofDecimal negative' n 0 = finite negative' e f := by
  obtain ⟨he, -⟩ := exists_exact hn h
  exact (ofDecimal_eq_finite_iff hn he).2 ((ofDecimal_eq_finite_iff hn he).1 h)

theorem ne_zero_of_read (hn : n ≠ 0) (h : ofDecimal negative m 0 = ofDecimal negative n 0) : m ≠ 0 := by
  rintro rfl
  exact ofDecimal_ne_zero hn h.symm

/-- An integer with a place in the format for each of its bits is read exactly. -/
theorem toInt?_ofDecimal_of_lt (hlt : n < 2 * fractionLimit) :
    (ofDecimal false n 0).toInt? = some (n : Int) := by
  by_cases hsmall : n < powerOfTen 15
  · exact toInt?_ofDecimal false hsmall
  have hn : n ≠ 0 := by
    rintro rfl
    exact hsmall (powerOfTen_pos 15)
  have hlength : decimalLength n ≤ 16 :=
    (Nat.length_toDigits_le_iff (by decide) (by decide)).2 (Nat.lt_of_lt_of_le hlt (by decide))
  have hround : ofDecimal false n 0 = ofQuotient false n 1 := by
    rw [ofDecimal, if_neg (by omega), if_neg (by omega), if_pos (Int.le_refl 0), Int.toNat_zero,
      powerOfTen_zero, Nat.mul_one]
  rw [hround]
  by_cases hfraction : n < fractionLimit
  · exact toInt?_ofQuotient_one false hn hfraction
  · -- the leading bit is that of the significand already
    have hlog : n.log2 = 52 := by
      have hlow := (Nat.le_log2 hn).2 (Nat.not_lt.1 hfraction : 2 ^ 52 ≤ n)
      have hhigh := (Nat.log2_lt hn).2 (show n < 2 ^ 53 from hlt)
      omega
    have hfields : ofQuotient false n 1 = finite false 1075 ⟨n - fractionLimit, by omega⟩ := by
      rw [ofQuotient_one_eq_finite_iff hn, hlog]
      refine .inl ⟨rfl, .inl ?_⟩
      rw [Nat.add_sub_cancel' (Nat.not_lt.1 hfraction)]
      norm_num
    have hwhole : whole? 1075 ⟨n - fractionLimit, by omega⟩ = some n := by
      rw [whole?_eq_some_iff, exact, significand_of_pos (by decide),
        Nat.add_sub_cancel' (Nat.not_lt.1 hfraction), show scale 1075 = 0 by decide, zpow_zero,
        mul_one]
    rw [hfields, toInt?_finite, hwhole]
    rfl

/-- An integer that is read exactly is the only one that is read as that number. -/
theorem isPreferred_of_lt (hlt : n < 2 * fractionLimit) : IsPreferred n := by
  refine ⟨n, toInt?_ofDecimal_of_lt hlt, fun m hread hne => absurd ?_ hne⟩
  by_cases hn : n = 0
  · subst hn
    by_contra hm
    exact ofDecimal_ne_zero hm hread
  have hexact := toInt?_ofDecimal_of_lt hlt
  rcases ofDecimal_cases false n with ⟨e, f, hfinite⟩ | hinfinite
  · obtain ⟨he, v, hv, -⟩ := exists_exact hn hfinite
    rw [hfinite, toInt?_finite, whole?_eq_some_iff.2 hv] at hexact
    obtain rfl : v = n := Int.ofNat.inj (Option.some.inj hexact)
    have hm := ne_zero_of_read hn hread
    rw [hfinite, ofDecimal_eq_finite_iff hm he] at hread
    have hdist := dist_le_of_contains he hread
    rw [← hv] at hdist
    have hlt : (v : ℚ) < 2 ^ 53 := by exact_mod_cast hlt
    have hone : |(m : ℚ) - v| < 1 := hdist.trans_lt ((div_lt_one (by norm_num)).2 hlt)
    have hint : |(m : Int) - v| < 1 := by exact_mod_cast hone
    have hzero := Int.abs_lt_one_iff.1 hint
    omega
  · rw [hinfinite] at hexact
    exact nomatch hexact

/-- An integer of less than `1024` bits is in the range of the format. -/
theorem exists_finite (negative : Bool) (hlog : n.log2 < 1023) :
    ∃ e f, ofDecimal negative n 0 = finite negative e f := by
  by_cases hn : n = 0
  · exact ⟨0, 0, by rw [hn, ofDecimal, if_pos (.inl rfl)]⟩
  have hlength := decimalLength_le_of_log2_lt (Nat.lt_succ_of_lt hlog)
  rw [ofDecimal, if_neg (by omega), if_neg (by omega), if_pos (Int.le_refl 0), Int.toNat_zero,
    powerOfTen_zero, Nat.mul_one, ofQuotient_one negative hn, ofFields]
  split
  · exact ⟨_, _, rfl⟩
  · split
    · exact ⟨_, _, dif_pos (by omega)⟩
    · exact ⟨_, _, dif_pos (by omega)⟩

/-- An integer with at most fifteen digits before its zeros is the only one with as many zeros that is
read as that number. -/
theorem isPreferred_of_digits {d k : Nat} (hd : d < 10 ^ 15) (hn : n = d * 10 ^ k)
    (hlog : n.log2 < 1023) : IsPreferred n := by
  obtain ⟨e, f, hfinite⟩ := exists_finite false hlog
  by_cases hzero : n = 0
  · rw [hzero]
    exact isPreferred_of_lt (by decide)
  obtain ⟨he, v, hv, -⟩ := exists_exact hzero hfinite
  refine ⟨v, ?_, fun m hread hne => ?_⟩
  · rw [hfinite, toInt?_finite, whole?_eq_some_iff.2 hv]
    rfl
  · have hdvd : 10 ^ k ∣ n := hn ▸ Nat.dvd_mul_left ..
    refine .inl ⟨k, hdvd, fun hm => hne ?_⟩
    have hm0 := ne_zero_of_read hzero hread
    rw [hfinite, ofDecimal_eq_finite_iff hm0 he] at hread
    rw [ofDecimal_eq_finite_iff hzero he] at hfinite
    -- both lie so near to the number that there is no room for a multiple in between
    have hmv := dist_le_of_contains he hread
    have hnv := dist_le_of_contains he hfinite
    rw [← hv, abs_le] at hmv hnv
    have hlt : (n : ℚ) ≤ (10 ^ k : Nat) * 10 ^ 15 := by
      rw [hn, Nat.mul_comm d]
      exact_mod_cast Nat.mul_le_mul_left _ hd.le
    have hu : (0 : ℚ) < 10 ^ k := by positivity
    norm_num at hmv hnv hlt
    refine Nat.le_antisymm (le_of_dvd_of_close hdvd hm ?_) (le_of_dvd_of_close hm hdvd ?_)
    · push_cast
      linarith
    · push_cast
      linarith

theorem isPreferred_iff {negative : Bool} {n v : Nat} {e : Fin 2047} {f : Fin fractionLimit}
    (hn : n ≠ 0) (h : ofDecimal negative n 0 = finite negative e f) (hv : (v : ℚ) = exact e f) :
    IsPreferred n ↔ ∀ x, x ≠ 0 → ofDecimal negative x 0 = ofDecimal negative n 0 → x ≠ n →
      Better v n x := by
  have hfalse := ofDecimal_eq_finite_sign hn false h
  have hint : (ofDecimal false n 0).toInt? = some (v : Int) := by
    rw [hfalse, toInt?_finite, whole?_eq_some_iff.2 hv]
    rfl
  constructor
  · rintro ⟨v', hv', hall⟩ x hx hread hne
    obtain rfl : v' = v := Int.ofNat.inj (Option.some.inj (hv'.symm.trans hint))
    refine hall x ?_ hne
    rw [hfalse]
    exact ofDecimal_eq_finite_sign hx false (hread.trans h)
  · intro hall
    refine ⟨v, hint, fun x hread hne => ?_⟩
    have hx := ne_zero_of_read hn hread
    refine hall x hx ?_ hne
    rw [h]
    exact ofDecimal_eq_finite_sign hx negative (hread.trans hfalse)

theorem not_isPreferred_of_infinite {negative : Bool} {n : Nat} (hn : n ≠ 0)
    (h : ofDecimal negative n 0 = infinite negative) : ¬ IsPreferred n := by
  rintro ⟨v, hv, -⟩
  rcases ofDecimal_cases false n with ⟨e, f, hfinite⟩ | hinfinite
  · exact nomatch h.symm.trans (ofDecimal_eq_finite_sign hn negative hfinite)
  · rw [hinfinite] at hv
    exact nomatch hv

end Binary64

open Binary64

/-- The digits of an integer behind its sign. -/
def signed (negative : Bool) (n : Nat) : String :=
  (if negative then "-" else "") ++ String.ofList (Nat.toDigits 10 n)

theorem toList_signed (negative : Bool) (n : Nat) :
    (signed negative n).toList = (if negative then ['-'] else []) ++ Nat.toDigits 10 n := by
  rw [signed, String.toList_append, String.toList_ofList]
  cases negative <;> rfl

theorem signed_ne_empty (negative : Bool) (n : Nat) : signed negative n ≠ "" := by
  rw [ne_eq, ← String.toList_eq_nil_iff, toList_signed]
  exact List.append_ne_nil_of_right_ne_nil _ Nat.toDigits_ne_nil

theorem signed_inj {negative : Bool} {m n : Nat} : signed negative m = signed negative n ↔ m = n := by
  refine ⟨fun h => ?_, fun h => h ▸ rfl⟩
  rw [← String.toList_inj, toList_signed, toList_signed, List.append_cancel_left_eq] at h
  rw [← Nat.ofDigitChars_ten_toDigits (n := m), h, Nat.ofDigitChars_ten_toDigits]

theorem toString_eq_signed (i : Int) : toString i = signed (i < 0) i.natAbs := by
  apply String.toList_inj.1
  rw [toList_toString_int, toList_signed]
  simp only [decide_eq_true_eq]

/-- The text of a float that is read off a large integer. -/
theorem toText_large (negative : Bool) {n : Nat} (hlarge : powerOfTen 15 ≤ n) :
    let text := (Value.ofNumber (powerOfTen 15) (ofDecimal negative n 0)).toText
    text ≠ "" ∧ (text = signed negative n ↔ IsPreferred n) := by
  have hn : n ≠ 0 := Nat.ne_of_gt (Nat.lt_of_lt_of_le (powerOfTen_pos 15) hlarge)
  rcases ofDecimal_cases negative n with ⟨e, f, hfinite⟩ | hinfinite
  · obtain ⟨he, v, hv, hcases⟩ := exists_exact hn hfinite
    have hv15 : powerOfTen 15 ≤ v := by
      rcases hcases with rfl | h
      · exact hlarge
      · exact Nat.le_trans (by decide) h
    obtain ⟨m, hm, hiff⟩ := exists_toText hn hfinite hv
      (Nat.lt_of_lt_of_le (powerOfTen_pos 15) hv15)
    have hvalue : Value.ofNumber (powerOfTen 15) (ofDecimal negative n 0) =
        .float (ofDecimal negative n 0) := by
      rw [Value.ofNumber, hfinite, toInt?_finite, whole?_eq_some_iff.2 hv]
      refine if_neg (Nat.not_lt.2 ?_)
      split
      · rwa [Int.natAbs_neg]
      · exact hv15
    rw [hvalue, isPreferred_iff hn hfinite hv, ← hiff]
    change toText (ofDecimal negative n 0) ≠ "" ∧ (toText (ofDecimal negative n 0) = _ ↔ _)
    rw [hm]
    exact ⟨signed_ne_empty negative m, signed_inj⟩
  · have hvalue : Value.ofNumber (powerOfTen 15) (ofDecimal negative n 0) =
        .float (.infinite negative) := by
      rw [hinfinite]
      rfl
    rw [hvalue]
    refine ⟨?_, iff_of_false (fun h => ?_) (not_isPreferred_of_infinite hn hinfinite)⟩
    · cases negative <;> decide
    · -- the word for an infinity has letters
      have hf : 'f' ∈ (signed negative n).toList := by
        rw [← h]
        cases negative <;> decide
      rw [toList_signed] at hf
      rcases List.mem_append.1 hf with hf | hf
      · cases negative <;> exact absurd hf (by decide)
      · exact absurd (isDigit_of_mem_toDigits hf) (by decide)

/-- An integer is read as a number with the same text just if it is the best text of that number. -/
theorem Dialect.exists_number_toString (i : Int) : ∃ value, Dialect.number (toString i) = .ok value ∧
    value.toText ≠ "" ∧ (value.toText = toString i ↔ IsPreferred i.natAbs) := by
  by_cases hsmall : i.natAbs < powerOfTen 15
  · have htext := Value.toText_ofInt hsmall
    refine ⟨_, Dialect.number_toString hsmall, ?_, ?_⟩
    · rw [htext, toString_eq_signed]
      exact signed_ne_empty _ _
    · exact iff_of_true htext (isPreferred_of_lt (hsmall.trans (by decide)))
  · have hdigits : ∀ c ∈ Nat.toDigits 10 i.natAbs, c.isDigit = true :=
      fun _ => isDigit_of_mem_toDigits
    have hread := Dialect.number_of_digits (i < 0) hdigits Nat.toDigits_ne_nil
    rw [← toList_signed, String.ofList_toList, ← toString_eq_signed,
      show Text.ofDigits (Nat.toDigits 10 i.natAbs) = i.natAbs from
        Nat.ofDigitChars_ten_toDigits] at hread
    obtain ⟨hne, hiff⟩ := toText_large (i < 0) (Nat.not_lt.1 hsmall)
    rw [← toString_eq_signed] at hiff
    exact ⟨_, hread, hne, hiff⟩

end ScriptBlocks
