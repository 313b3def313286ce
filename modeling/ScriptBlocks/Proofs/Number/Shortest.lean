import ScriptBlocks.Proofs.Number.Rounding

/-!
# Shortest decimals of integers

The text of a large number is one of the integers that are read as the number. The search goes
through the powers of ten from the greatest down, and on each grid it need only look at the two
neighbours of the number: so it finds the integer that ends in the most zeros, and of those with as
many the one nearest to the number.

## Main definitions

* `Binary64.Nearer` — at most as far away, the greater of two that are equally far
* `Binary64.Better` — which of two integers is the better text of a number

## Main statements

* `Binary64.Neighbourhood.onGrid_spec` — the search on one grid
* `Binary64.shortest_spec` — the whole search
-/

namespace ScriptBlocks.Binary64

/-- The integer `n` is at most as far from `v` as `m` is, and the greater one if they are equally
far. -/
def Nearer (v n m : Nat) : Prop :=
  ((n : Int) - v).natAbs < ((m : Int) - v).natAbs ∨
    ((n : Int) - v).natAbs = ((m : Int) - v).natAbs ∧ m ≤ n

/-- Of two integers that are read as one number `v`, the first is the better text: it ends in more
zeros, or in as many and is nearer. -/
def Better (v n m : Nat) : Prop :=
  (∃ k, 10 ^ k ∣ n ∧ ¬ 10 ^ k ∣ m) ∨ (∀ k, 10 ^ k ∣ m → 10 ^ k ∣ n) ∧ Nearer v n m

namespace Neighbourhood

variable {nb : Neighbourhood} {v k d n m : Nat}

/-! ### Between the ends -/

theorem Contains.of_between {x y z : ℚ} (hx : nb.Contains x) (hz : nb.Contains z) (hxy : x ≤ y)
    (hyz : y ≤ z) : nb.Contains y := by
  rw [Contains] at *
  split at hx
  · next h =>
    rw [if_pos h] at hz ⊢
    exact ⟨hx.1.trans hxy, hyz.trans hz.2⟩
  · next h =>
    rw [if_neg h] at hz ⊢
    exact ⟨hx.1.trans_le hxy, hyz.trans_lt hz.2⟩

theorem holds_iff (hden : 0 < nb.den) :
    nb.holds k d = true ↔ nb.Contains ((d * 10 ^ k : Nat) : ℚ) := by
  have hpos : (0 : ℚ) < nb.den := by exact_mod_cast hden
  have hcross (n : Nat) : nb.cross k d n = (d * 10 ^ k * nb.den, n) := by
    simp [cross, powerOfTen]
  rw [Contains, le_div_iff₀ hpos, div_le_iff₀ hpos, lt_div_iff₀ hpos, div_lt_iff₀ hpos]
  simp only [holds, hcross]
  norm_cast
  split <;> simp

/-! ### One grid -/

/-- A multiple of a unit lies at one of the two multiples next to an integer or beyond. -/
theorem le_or_le_of_dvd {u : Nat} (hn : u ∣ n) : n ≤ v / u * u ∨ (v / u + 1) * u ≤ n := by
  obtain ⟨q, rfl⟩ := hn
  rw [Nat.mul_comm u q]
  rcases Nat.lt_or_ge (v / u) q with h | h
  · exact .inr (Nat.mul_le_mul_right u h)
  · exact .inl (Nat.mul_le_mul_right u h)

theorem onGrid_eq (hden : 0 < nb.den) (hvalue : nb.value = v * nb.den) (k : Nat) :
    nb.onGrid .up k =
      match nb.holds k (v / 10 ^ k), nb.holds k (v / 10 ^ k + 1) with
      | false, false => none
      | true, false => some ⟨v / 10 ^ k, k⟩
      | false, true => some ⟨v / 10 ^ k + 1, k⟩
      | true, true =>
        some ⟨if 10 ^ k ≤ 2 * (v % 10 ^ k) then v / 10 ^ k + 1 else v / 10 ^ k, k⟩ := by
  have hcross : nb.cross k 1 nb.value = (10 ^ k * nb.den, v * nb.den) := by
    simp [cross, powerOfTen, hvalue]
  have hdiv : v * nb.den / (10 ^ k * nb.den) = v / 10 ^ k := Nat.mul_div_mul_right _ _ hden
  have hmod : v * nb.den % (10 ^ k * nb.den) = v % 10 ^ k * nb.den := Nat.mul_mod_mul_right ..
  have heq : 2 * (v % 10 ^ k * nb.den) = 10 ^ k * nb.den ↔ 2 * (v % 10 ^ k) = 10 ^ k := by
    rw [← Nat.mul_assoc, Nat.mul_left_inj hden.ne']
  have hlt : 10 ^ k * nb.den < 2 * (v % 10 ^ k * nb.den) ↔ 10 ^ k < 2 * (v % 10 ^ k) := by
    rw [← Nat.mul_assoc, Nat.mul_lt_mul_right hden]
  simp only [onGrid, hcross, hdiv, hmod, heq, hlt]
  have hupper : (if 2 * (v % 10 ^ k) = 10 ^ k then true else decide (10 ^ k < 2 * (v % 10 ^ k))) =
      decide (10 ^ k ≤ 2 * (v % 10 ^ k)) := by
    split
    · next h => exact (decide_eq_true h.ge).symm
    · next h => exact decide_eq_decide.2 ⟨Nat.le_of_lt, fun hle => Nat.lt_of_le_of_ne hle (Ne.symm h)⟩
  cases nb.holds k (v / 10 ^ k) with
  | false =>
    cases nb.holds k (v / 10 ^ k + 1) with
    | false => rfl
    | true => rfl
  | true =>
    cases nb.holds k (v / 10 ^ k + 1) with
    | false => rfl
    | true => simp only [hupper, decide_eq_true_eq]

/-- The search on the grid of the multiples of a power of ten finds the nearest of those in the
neighbourhood, if there are any. -/
theorem onGrid_spec (hden : 0 < nb.den) (hvalue : nb.value = v * nb.den) (hv : nb.Contains v)
    (k : Nat) :
    (nb.onGrid .up k = none ∧ ∀ n : Nat, nb.Contains n → ¬ 10 ^ k ∣ n) ∨
      ∃ d, nb.onGrid .up k = some ⟨d, k⟩ ∧ nb.Contains ((d * 10 ^ k : Nat) : ℚ) ∧
        ∀ n : Nat, nb.Contains n → 10 ^ k ∣ n → Nearer v (d * 10 ^ k) n := by
  obtain ⟨u, hu⟩ : ∃ u, u = 10 ^ k := ⟨_, rfl⟩
  have hpos : 0 < u := hu ▸ Nat.pow_pos (by decide)
  have hlow : v / u * u ≤ v := Nat.div_mul_le_self v u
  have hhigh : v < (v / u + 1) * u := by
    rw [Nat.add_one_mul]
    exact Nat.lt_div_mul_add hpos
  -- a multiple in the neighbourhood brings the neighbour on its side along
  have hside {n : Nat} (hn : nb.Contains n) (hdvd : u ∣ n) :
      (n ≤ v / u * u ∧ nb.holds k (v / u) = true) ∨
        ((v / u + 1) * u ≤ n ∧ nb.holds k (v / u + 1) = true) := by
    rw [holds_iff hden, holds_iff hden, ← hu]
    rcases le_or_le_of_dvd (v := v) hdvd with h | h
    · exact .inl ⟨h, hn.of_between hv (by exact_mod_cast h) (by exact_mod_cast hlow)⟩
    · exact .inr ⟨h, hv.of_between hn (by exact_mod_cast hhigh.le) (by exact_mod_cast h)⟩
  have hcontains {d : Nat} (h : nb.holds k d = true) : nb.Contains ((d * u : Nat) : ℚ) :=
    hu ▸ (holds_iff hden).1 h
  have hunit : (v / u + 1) * u = v / u * u + u := Nat.add_one_mul ..
  have hmod : v / u * u + v % u = v := Nat.div_add_mod' v u
  rw [onGrid_eq hden hvalue, ← hu]
  cases hb : nb.holds k (v / u) with
  | false =>
    cases ha : nb.holds k (v / u + 1) with
    | false =>
      refine .inl ⟨rfl, fun n hn hdvd => ?_⟩
      rcases hside hn hdvd with ⟨-, h⟩ | ⟨-, h⟩
      · exact nomatch hb.symm.trans h
      · exact nomatch ha.symm.trans h
    | true =>
      refine .inr ⟨v / u + 1, rfl, hcontains ha, fun n hn hdvd => ?_⟩
      rcases hside hn hdvd with ⟨-, h⟩ | ⟨h, -⟩
      · exact nomatch hb.symm.trans h
      · unfold Nearer
        omega
  | true =>
    cases ha : nb.holds k (v / u + 1) with
    | false =>
      refine .inr ⟨v / u, rfl, hcontains hb, fun n hn hdvd => ?_⟩
      rcases hside hn hdvd with ⟨h, -⟩ | ⟨-, h⟩
      · unfold Nearer
        omega
      · exact nomatch ha.symm.trans h
    | true =>
      refine .inr ⟨_, rfl, ?_, fun n hn hdvd => ?_⟩
      · split
        · exact hcontains ha
        · exact hcontains hb
      · have hcases := le_or_le_of_dvd (v := v) hdvd
        unfold Nearer
        split <;> omega

end Neighbourhood

/-! ### How far a neighbourhood reaches -/

section Reach

variable {e : Fin 2047} {f : Fin fractionLimit} {y : ℚ}

theorem den_pos (e : Fin 2047) (f : Fin fractionLimit) : 0 < (neighbourhood e f).den := by
  have h : (neighbourhood e f).den = 1 <<< (-(scale e - 2)).toNat := rfl
  rw [h, Nat.shiftLeft_eq, Nat.one_mul]
  exact Nat.two_pow_pos _

theorem significand_cast_bounds (he : 0 < e.val) :
    (2 : ℚ) ^ 52 ≤ significand e f ∧ (significand e f : ℚ) + 1 ≤ 2 ^ 53 := by
  have hf := f.isLt
  rw [significand_of_pos he]
  constructor
  · exact_mod_cast Nat.le_add_right fractionLimit f
  · have h : fractionLimit + f.val + 1 ≤ 2 * fractionLimit := by omega
    exact_mod_cast h

/-- In last bits. -/
theorem exists_eq_mul_scale (e : Fin 2047) (y : ℚ) : ∃ t : ℚ, y = t * 2 ^ scale e ∧
    y / 2 ^ scale e = t ∧ ∀ m : ℚ, |y - m * 2 ^ scale e| = |t - m| * 2 ^ scale e := by
  have hpos := two_zpow_pos (scale e)
  refine ⟨y / 2 ^ scale e, (div_mul_cancel₀ y hpos.ne').symm, rfl, fun m => ?_⟩
  rw [← abs_of_pos hpos, ← abs_mul, abs_of_pos hpos, sub_mul, div_mul_cancel₀ y hpos.ne']

/-- What lies in the neighbourhood differs from the number by one part in `2 ^ 53` at most. -/
theorem dist_le_of_contains (he : 0 < e.val) (h : (neighbourhood e f).Contains y) :
    |y - exact e f| ≤ exact e f / 2 ^ 53 := by
  obtain ⟨hlow, hhigh⟩ := bounds_of_contains he h
  obtain ⟨t, -, ht, hdist⟩ := exists_eq_mul_scale e y
  obtain ⟨hm, -⟩ := significand_cast_bounds (f := f) he
  rw [ht] at hlow hhigh
  rw [exact, hdist, mul_div_right_comm]
  refine mul_le_mul_of_nonneg_right ?_ (two_zpow_pos (scale e)).le
  have hreach : (reach e f : ℚ) ≤ 2 := by
    rcases reach_eq_one_or_two e f with ⟨h, -⟩ | ⟨h, -⟩ <;> rw [h] <;> norm_num
  rw [le_div_iff₀ (by norm_num), abs_sub_comm]
  have habs : |(significand e f : ℚ) - t| ≤ 1 / 2 := abs_le.2 ⟨by linarith, by linarith⟩
  calc |(significand e f : ℚ) - t| * 2 ^ 53 ≤ 1 / 2 * 2 ^ 53 :=
        mul_le_mul_of_nonneg_right habs (by norm_num)
    _ = 2 ^ 52 := by norm_num
    _ ≤ significand e f := hm

/-- What differs from the number by less than one part in `2 ^ 54` lies in its neighbourhood. -/
theorem contains_of_dist_lt (he : 0 < e.val) (h : |y - exact e f| < exact e f / 2 ^ 54) :
    (neighbourhood e f).Contains y := by
  obtain ⟨t, -, ht, hdist⟩ := exists_eq_mul_scale e y
  obtain ⟨hm, hm'⟩ := significand_cast_bounds (f := f) he
  rw [exact, hdist, mul_div_right_comm, mul_lt_mul_iff_left₀ (two_zpow_pos (scale e)), abs_lt] at h
  have hstrict : significand e f - (reach e f : ℚ) / 4 < t ∧ t < significand e f + 1 / 2 := by
    rcases reach_eq_one_or_two e f with ⟨hreach, hf, -⟩ | ⟨hreach, -⟩
    · have hpower : (significand e f : ℚ) = 2 ^ 52 := by
        rw [significand_of_pos he, hf]
        norm_num
      rw [hreach]
      rw [hpower] at h ⊢
      norm_num at h ⊢
      constructor <;> linarith
    · rw [hreach]
      norm_num at hm hm' h ⊢
      constructor <;> linarith
  rw [contains_iff he, ht]
  split
  · exact ⟨hstrict.1.le, hstrict.2.le⟩
  · exact hstrict

end Reach

/-! ### The search -/

theorem findSome?_range_cases {α : Type} (f : Nat → Option α) (n : Nat) :
    ((List.range n).findSome? f = none ∧ ∀ i < n, f i = none) ∨
      ∃ i < n, ∃ a, (List.range n).findSome? f = some a ∧ f i = some a ∧ ∀ j < i, f j = none := by
  induction n with
  | zero => exact .inl ⟨rfl, nofun⟩
  | succ n ih =>
    rw [List.range_succ, List.findSome?_append]
    rcases ih with ⟨hnone, hall⟩ | ⟨i, hi, a, hfound, ha, hfirst⟩
    · rw [hnone, Option.none_or, List.findSome?_singleton]
      cases hn : f n with
      | none =>
        refine .inl ⟨rfl, fun i hi => ?_⟩
        rcases Nat.lt_succ_iff_lt_or_eq.1 hi with hi | rfl
        · exact hall i hi
        · exact hn
      | some a => exact .inr ⟨n, Nat.lt_succ_self n, a, rfl, hn, hall⟩
    · rw [hfound, Option.some_or]
      exact .inr ⟨i, Nat.lt_succ_of_lt hi, a, rfl, ha, hfirst⟩

theorem Decimal.trimZeros_spec {d : Decimal} {k : Nat} (hk : d.exponent = k) (hd : d.digits ≠ 0)
    (fuel : Nat) : ∃ k' : Nat, (d.trimZeros fuel).exponent = k' ∧ (d.trimZeros fuel).digits ≠ 0 ∧
      (d.trimZeros fuel).digits * 10 ^ k' = d.digits * 10 ^ k := by
  induction fuel generalizing d k with
  | zero => exact ⟨k, hk, hd, rfl⟩
  | succ fuel ih =>
    rw [Decimal.trimZeros]
    split
    · next h =>
      have hdigits : d.digits / 10 * 10 = d.digits := Nat.div_mul_cancel (Nat.dvd_of_mod_eq_zero h.2)
      obtain ⟨k', hk', hd', heq⟩ := ih (d := ⟨d.digits / 10, d.exponent + 1⟩) (k := k + 1)
        (by simp [hk]) (by simp only; omega)
      refine ⟨k', hk', hd', heq.trans ?_⟩
      rw [Nat.pow_succ', ← Nat.mul_assoc, hdigits]
    · exact ⟨k, hk, hd, rfl⟩

section Search

variable {e : Fin 2047} {f : Fin fractionLimit} {v : Nat}

theorem value_eq (hv : (v : ℚ) = exact e f) :
    (neighbourhood e f).value = v * (neighbourhood e f).den := by
  have hpos : ((neighbourhood e f).den : ℚ) ≠ 0 := by
    exact_mod_cast (den_pos e f).ne'
  have h := value_div_den e f
  rw [div_eq_iff hpos, ← hv] at h
  exact_mod_cast h

theorem contains_self (he : 0 < e.val) (hv : (v : ℚ) = exact e f) (hpos : 0 < v) :
    (neighbourhood e f).Contains v := by
  refine contains_of_dist_lt he ?_
  rw [← hv, sub_self, abs_zero]
  positivity

theorem length_bounds (hpos : 0 < v) :
    10 ^ (decimalLength v - 1) ≤ v ∧ v < 10 ^ (decimalLength v - 1 + 1) := by
  have hiff {k : Nat} (hk : 0 < k) : decimalLength v ≤ k ↔ v < 10 ^ k :=
    Nat.length_toDigits_le_iff (by decide) hk
  refine ⟨?_, (hiff (Nat.succ_pos _)).1 (by omega)⟩
  rcases Nat.eq_zero_or_pos (decimalLength v - 1) with h | h
  · rw [h]
    exact hpos
  · exact Nat.not_lt.1 fun hlt => by
      have := (hiff h).2 hlt
      omega

/-- The search starts at the leading digit. -/
theorem magnitude_eq (hv : (v : ℚ) = exact e f) (hpos : 0 < v) :
    (neighbourhood e f).magnitude 330
      (decimalLength ((neighbourhood e f).value / (neighbourhood e f).den) : Nat) =
        (decimalLength v - 1 : Nat) := by
  have hden := den_pos e f
  have hlength : 0 < decimalLength v := Nat.length_toDigits_pos
  obtain ⟨hlow, hhigh⟩ := length_bounds hpos
  have hcross (k : Nat) : (neighbourhood e f).cross k 1 (neighbourhood e f).value =
      (10 ^ k * (neighbourhood e f).den, v * (neighbourhood e f).den) := by
    simp [Neighbourhood.cross, powerOfTen, value_eq hv]
  rw [value_eq hv, Nat.mul_div_cancel v hden]
  obtain ⟨k, hk⟩ : ∃ k, decimalLength v = k + 1 := Nat.exists_eq_add_one.2 hlength
  rw [hk, Nat.add_sub_cancel] at hlow hhigh
  have hprev : ((k + 1 : Nat) : Int) - 1 = k := by omega
  rw [hk, Neighbourhood.magnitude, hcross, Neighbourhood.magnitude, hprev, hcross]
  simp only [Nat.mul_le_mul_right_iff hden, Nat.not_le.2 hhigh, hlow, if_true, if_false,
    Nat.add_sub_cancel]

theorem le_of_dvd_of_close {u n m : Nat} (hn : u ∣ n) (hm : u ∣ m) (h : (m : ℚ) - n < u) :
    m ≤ n := by
  by_contra hlt
  have hle := Nat.le_of_lt (Nat.lt_of_not_le hlt)
  have hdvd := Nat.le_of_dvd (Nat.sub_pos_of_lt (Nat.lt_of_not_le hlt)) (Nat.dvd_sub hm hn)
  have hcast : (u : ℚ) ≤ (m - n : Nat) := by exact_mod_cast hdvd
  rw [Nat.cast_sub hle] at hcast
  exact absurd h (not_lt.2 hcast)

/-- No two multiples of the power of ten at the leading digit lie in one neighbourhood. -/
theorem eq_of_dvd (he : 0 < e.val) (hv : (v : ℚ) = exact e f) (hpos : 0 < v) {n m : Nat}
    (hn : (neighbourhood e f).Contains n) (hm : (neighbourhood e f).Contains m)
    (hdn : 10 ^ (decimalLength v - 1) ∣ n) (hdm : 10 ^ (decimalLength v - 1) ∣ m) : n = m := by
  have hnv := dist_le_of_contains he hn
  have hmv := dist_le_of_contains he hm
  rw [← hv, abs_le] at hnv hmv
  have hlt : (v : ℚ) < (10 ^ (decimalLength v - 1) : Nat) * 10 := by
    exact_mod_cast (length_bounds hpos).2
  have hu : (0 : ℚ) < (10 ^ (decimalLength v - 1) : Nat) := by positivity
  norm_num at hnv hmv
  refine Nat.le_antisymm (le_of_dvd_of_close hdm hdn ?_) (le_of_dvd_of_close hdn hdm ?_)
  · linarith
  · linarith

/-- Seventeen digits are enough to tell the number from all others. -/
theorem exists_dvd (he : 0 < e.val) (hv : (v : ℚ) = exact e f) {k : Nat} (hk : 10 ^ (k + 16) ≤ v) :
    ∃ n : Nat, (neighbourhood e f).Contains n ∧ 10 ^ k ∣ n := by
  obtain ⟨u, hu⟩ : ∃ u, u = 10 ^ k := ⟨_, rfl⟩
  rw [Nat.pow_add, ← hu] at hk
  have hpos : 0 < u := hu ▸ Nat.pow_pos (by decide)
  have hlow : v / u * u ≤ v := Nat.div_mul_le_self v u
  have hhigh : v < v / u * u + u := Nat.lt_div_mul_add hpos
  -- one of the two multiples next to the number is within half the power of ten
  have hnear : ∃ n, u ∣ n ∧ 2 * v ≤ 2 * n + u ∧ 2 * n ≤ 2 * v + u := by
    by_cases h : 2 * v ≤ 2 * (v / u * u) + u
    · exact ⟨v / u * u, Nat.dvd_mul_left .., h, by omega⟩
    · exact ⟨v / u * u + u, Nat.dvd_add (Nat.dvd_mul_left ..) (Nat.dvd_refl u), by omega, by omega⟩
  obtain ⟨n, hdvd, hbelow, habove⟩ := hnear
  refine ⟨n, contains_of_dist_lt he ?_, hu ▸ hdvd⟩
  have hbelow : 2 * (v : ℚ) ≤ 2 * n + u := by exact_mod_cast hbelow
  have habove : 2 * (n : ℚ) ≤ 2 * v + u := by exact_mod_cast habove
  have hk : (u : ℚ) * 10 ^ 16 ≤ v := by exact_mod_cast hk
  have hpos : (0 : ℚ) < u := by exact_mod_cast hpos
  rw [← hv, abs_lt]
  norm_num at hk ⊢
  constructor <;> linarith

/-- From the leading digit down, some place ends a decimal that reads back, and the first such place
gives the best one. -/
theorem exists_found (he : 0 < e.val) (hv : (v : ℚ) = exact e f) (hpos : 0 < v) :
    ∃ d k : Nat, (List.range 17).findSome? (fun i : Nat =>
        (neighbourhood e f).onGrid .up ((decimalLength v - 1 : Nat) - i : Int)) = some ⟨d, k⟩ ∧
      (neighbourhood e f).Contains ((d * 10 ^ k : Nat) : ℚ) ∧
      ∀ n : Nat, (neighbourhood e f).Contains n → n ≠ d * 10 ^ k → Better v (d * 10 ^ k) n := by
  have hself := contains_self he hv hpos
  have hgrid (k : Nat) := Neighbourhood.onGrid_spec (den_pos e f) (value_eq hv) hself k
  have hunique {n m : Nat} := eq_of_dvd (n := n) (m := m) he hv hpos
  obtain ⟨top, htop⟩ : ∃ top, top = decimalLength v - 1 := ⟨_, rfl⟩
  have hlow := (length_bounds hpos).1
  rw [← htop] at hlow hunique ⊢
  have hplace {i : Nat} (hi : i ≤ top) : (top : Int) - i = (top - i : Nat) := by omega
  -- the units in any case, or the last of seventeen digits
  have hsome : ∃ i < 17, i ≤ top ∧ (neighbourhood e f).onGrid .up ((top : Int) - i) ≠ none := by
    by_cases hsmall : top < 17
    · refine ⟨top, hsmall, Nat.le_refl top, fun hnone => ?_⟩
      rw [hplace (Nat.le_refl top)] at hnone
      rcases hgrid (top - top) with ⟨-, hall⟩ | ⟨d, hd, -⟩
      · rw [Nat.sub_self] at hall
        exact hall v hself (Nat.one_dvd v)
      · exact nomatch hnone.symm.trans hd
    · refine ⟨16, by decide, by omega, fun hnone => ?_⟩
      rw [hplace (by omega)] at hnone
      rcases hgrid (top - 16) with ⟨-, hall⟩ | ⟨d, hd, -⟩
      · obtain ⟨n, hn, hdvd⟩ := exists_dvd he hv (k := top - 16)
          (by rwa [Nat.sub_add_cancel (by omega)])
        exact hall n hn hdvd
      · exact nomatch hnone.symm.trans hd
  obtain ⟨i₀, hi₀, hle₀, hne⟩ := hsome
  rcases findSome?_range_cases
    (fun i : Nat => (neighbourhood e f).onGrid .up ((top : Int) - i)) 17 with
    ⟨-, hall⟩ | ⟨i, hi, D, hfound, hD, hfirst⟩
  · exact absurd (hall i₀ hi₀) hne
  have hi : i ≤ top := by
    refine Nat.le_trans (Nat.not_lt.1 fun hlt => hne (hfirst i₀ hlt)) hle₀
  rw [hplace hi] at hD
  rcases hgrid (top - i) with ⟨hnone, -⟩ | ⟨d, hd, hcontains, hnearer⟩
  · exact nomatch hnone.symm.trans hD
  obtain rfl := Option.some.inj (hD.symm.trans hd)
  refine ⟨d, top - i, hfound, hcontains, fun n hn hne => ?_⟩
  have hdvd : 10 ^ (top - i) ∣ d * 10 ^ (top - i) := Nat.dvd_mul_left ..
  by_cases hzeros : 10 ^ (top - i) ∣ n
  · cases i with
    | zero => exact absurd (hunique hn hcontains hzeros hdvd) hne
    | succ i =>
      -- on the grid before, there was nothing
      have hprev := hfirst i (Nat.lt_succ_self i)
      rw [hplace (by omega)] at hprev
      rcases hgrid (top - i) with ⟨-, hall⟩ | ⟨d', hd', -⟩
      · refine .inr ⟨fun j hj => ?_, hnearer n hn hzeros⟩
        have hjle : j ≤ top - (i + 1) := Nat.not_lt.1 fun hlt =>
          hall n hn ((Nat.pow_dvd_pow 10 (by omega)).trans hj)
        exact (Nat.pow_dvd_pow 10 hjle).trans hdvd
      · exact nomatch hprev.symm.trans hd'
  · exact .inl ⟨_, hdvd, hzeros⟩

/-- A number that is a large enough integer is written as the best of the integers that are read as
it. -/
theorem shortest_spec (he : 0 < e.val) (hv : (v : ℚ) = exact e f) (hpos : 0 < v) :
    ∃ n k : Nat, (shortest .up e f).exponent = k ∧ (shortest .up e f).digits ≠ 0 ∧
      (shortest .up e f).digits * 10 ^ k = n ∧ (neighbourhood e f).Contains n ∧
      ∀ m : Nat, (neighbourhood e f).Contains m → m ≠ n → Better v n m := by
  obtain ⟨d, k, hfound, hcontains, hbetter⟩ := exists_found he hv hpos
  have hd : d ≠ 0 := by
    rintro rfl
    have hdist := dist_le_of_contains he hcontains
    have hv' : (0 : ℚ) < v := by exact_mod_cast hpos
    rw [Nat.zero_mul, Nat.cast_zero, zero_sub, abs_neg, ← hv, abs_of_pos hv'] at hdist
    norm_num at hdist
    linarith
  obtain ⟨k', hk', hd', heq⟩ := Decimal.trimZeros_spec (d := ⟨d, k⟩) rfl hd 20
  have hshortest : shortest .up e f = Decimal.trimZeros 20 ⟨d, k⟩ := by
    simp only [shortest, magnitude_eq hv hpos, hfound, Option.getD_some]
  rw [hshortest]
  exact ⟨d * 10 ^ k, k', hk', hd', heq, hcontains, hbetter⟩

end Search

end ScriptBlocks.Binary64
