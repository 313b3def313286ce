import Mathlib.Algebra.Order.Floor.Semiring
import Mathlib.Tactic.FieldSimp
import Mathlib.Tactic.Linarith
import Mathlib.Tactic.NormNum
import Mathlib.Tactic.Positivity
import Mathlib.Tactic.Ring
import ScriptBlocks.Proofs.Number.Numeral

/-!
# Rounding

A quotient is rounded to the nearest integer, and with it an integer to the nearest number of the
format. The integers that are rounded to one number fill the neighbourhood of that number.

## Main definitions

* `Binary64.RoundsTo` — the nearest integer, a tie going to the even one
* `Binary64.exact` — the value of a finite number without its sign
* `Binary64.Neighbourhood.Contains` — what lies between the two ends of a neighbourhood

## Main statements

* `Binary64.roundDiv_eq_iff` — rounding finds the nearest integer
* `Binary64.ofDecimal_eq_finite_iff` — which integers are read as a number
-/

namespace ScriptBlocks.Binary64

/-! ### Rounding to an integer -/

/-- The integer nearest to `x` is `q`, which is even if `x` lies half way between two. -/
def RoundsTo (x : ℚ) (q : Nat) : Prop := |x - q| < 1 / 2 ∨ |x - q| = 1 / 2 ∧ q % 2 = 0

theorem RoundsTo.bounds {x : ℚ} {q : Nat} (h : RoundsTo x q) : q - 1 / 2 ≤ x ∧ x ≤ q + 1 / 2 := by
  have habs : |x - q| ≤ 1 / 2 := h.elim le_of_lt fun h => le_of_eq h.1
  rw [abs_le] at habs
  constructor <;> linarith

theorem RoundsTo.even_of_eq {x : ℚ} {q : Nat} (h : RoundsTo x q)
    (hx : x = q - 1 / 2 ∨ x = q + 1 / 2) : q % 2 = 0 := by
  have habs : |x - q| = 1 / 2 := by
    rcases hx with rfl | rfl
    · rw [sub_sub_cancel_left, abs_neg, abs_of_pos (by norm_num)]
    · rw [add_sub_cancel_left, abs_of_pos (by norm_num)]
  exact h.elim (fun hlt => absurd habs hlt.ne) And.right

theorem RoundsTo.le {x : ℚ} {p q : Nat} (hp : RoundsTo x p) (hq : RoundsTo x q) : q ≤ p := by
  by_contra hlt
  have hle : (p : ℚ) + 1 ≤ q := by
    exact_mod_cast Nat.succ_le_of_lt (Nat.lt_of_not_le hlt)
  have hpx := hp.bounds.2
  have hqx := hq.bounds.1
  have heq : q = p + 1 := by
    have : (q : ℚ) = p + 1 := le_antisymm (by linarith) hle
    exact_mod_cast this
  -- half way between the two, both would have to be even
  have hpe := hp.even_of_eq (.inr (le_antisymm hpx (by linarith)))
  have hqe := hq.even_of_eq (.inl (le_antisymm (by linarith) hqx))
  omega

theorem RoundsTo.unique {x : ℚ} {p q : Nat} (hp : RoundsTo x p) (hq : RoundsTo x q) : p = q :=
  Nat.le_antisymm (hq.le hp) (hp.le hq)

theorem roundsTo_iff {x : ℚ} {q : Nat} : RoundsTo x q ↔
    if q % 2 = 0 then q - 1 / 2 ≤ x ∧ x ≤ q + 1 / 2 else q - 1 / 2 < x ∧ x < q + 1 / 2 := by
  have hle : |x - q| ≤ 1 / 2 ↔ q - 1 / 2 ≤ x ∧ x ≤ q + 1 / 2 := by
    rw [abs_le, neg_le_sub_iff_le_add, sub_le_iff_le_add', sub_le_iff_le_add]
  have hlt : |x - q| < 1 / 2 ↔ q - 1 / 2 < x ∧ x < q + 1 / 2 := by
    rw [abs_lt, neg_lt_sub_iff_lt_add', sub_lt_iff_lt_add', sub_lt_iff_lt_add]
  rw [RoundsTo]
  split
  · next heven => rw [← hle, le_iff_lt_or_eq, and_iff_left heven]
  · next hodd => rw [← hlt, or_iff_left fun h => hodd h.2]

theorem roundsTo_roundDiv (num : Nat) {den : Nat} (hden : 0 < den) :
    RoundsTo ((num : ℚ) / den) (roundDiv num den) := by
  have hpos : (0 : ℚ) < den := by exact_mod_cast hden
  obtain ⟨r, hr⟩ : ∃ r : ℚ, r = (num % den : Nat) / (den : ℚ) := ⟨_, rfl⟩
  have hx : (num : ℚ) / den = (num / den : Nat) + r := by
    have hsplit : (num : ℚ) = den * (num / den : Nat) + (num % den : Nat) := by
      exact_mod_cast (Nat.div_add_mod num den).symm
    rw [hr, div_eq_iff hpos.ne', add_mul, div_mul_cancel₀ _ hpos.ne', hsplit]
    ring
  have hr0 : 0 ≤ r := by
    rw [hr]
    positivity
  have hr1 : r < 1 := by
    rw [hr, div_lt_one hpos]
    exact_mod_cast Nat.mod_lt num hden
  have hlow : r < 1 / 2 ↔ 2 * (num % den) < den := by
    rw [hr, div_lt_iff₀ hpos, ← @Nat.cast_lt ℚ]
    push_cast
    constructor <;> intro h <;> linarith
  have hhigh : 1 / 2 < r ↔ den < 2 * (num % den) := by
    rw [hr, lt_div_iff₀ hpos, ← @Nat.cast_lt ℚ]
    push_cast
    constructor <;> intro h <;> linarith
  rw [hx]
  simp only [roundDiv, ← hlow, ← hhigh, RoundsTo]
  by_cases h : r < 1 / 2
  · rw [if_pos h]
    exact .inl (abs_lt.2 ⟨by linarith, by linarith⟩)
  · rw [if_neg h]
    by_cases h' : 1 / 2 < r
    · rw [if_pos h']
      push_cast
      exact .inl (abs_lt.2 ⟨by linarith, by linarith⟩)
    · -- a tie, which goes up from an odd integer
      have hhalf : r = 1 / 2 := le_antisymm (not_lt.1 h') (not_lt.1 h)
      rw [if_neg h', hhalf]
      rcases Nat.mod_two_eq_zero_or_one (num / den) with heven | hodd
      · rw [heven, Nat.add_zero]
        exact .inr ⟨by rw [add_sub_cancel_left, abs_of_pos (by norm_num)], heven⟩
      · refine .inr ⟨?_, by omega⟩
        rw [hodd]
        push_cast
        rw [add_sub_add_left_eq_sub]
        norm_num

theorem roundDiv_eq_iff {num den q : Nat} (hden : 0 < den) :
    roundDiv num den = q ↔ RoundsTo ((num : ℚ) / den) q :=
  ⟨fun h => h ▸ roundsTo_roundDiv num hden, fun h => (roundsTo_roundDiv num hden).unique h⟩

/-! ### Powers of two -/

theorem two_zpow (z : ℤ) : (2 : ℚ) ^ z = 2 ^ z.toNat / 2 ^ (-z).toNat := by
  rcases Int.le_total 0 z with hz | hz
  · obtain ⟨n, rfl⟩ := Int.eq_ofNat_of_zero_le hz
    simp
  · obtain ⟨n, hn⟩ := Int.eq_ofNat_of_zero_le (Int.neg_nonneg_of_nonpos hz)
    obtain rfl : z = -n := by omega
    simp

theorem two_zpow_pos (z : ℤ) : (0 : ℚ) < 2 ^ z := zpow_pos (by norm_num) z

theorem two_zpow_add_nat (z : ℤ) (n : Nat) : (2 : ℚ) ^ (z + n) = 2 ^ n * 2 ^ z := by
  rw [zpow_add₀ (by norm_num), zpow_natCast, mul_comm]

/-! ### Rounding to the format -/

/-- The value of a finite number without its sign. -/
def exact (e : Fin 2047) (f : Fin fractionLimit) : ℚ := significand e f * 2 ^ scale e

/-- With `52` more bits than the leading one, an integer becomes a significand. -/
theorem ofQuotient_one (negative : Bool) {n : Nat} (hn : n ≠ 0) :
    ofQuotient negative n 1 = ofFields negative (n.log2 + 1023)
      (roundDiv (n * 2 ^ (52 - n.log2)) (2 ^ (n.log2 - 52))) := by
  have hscale : max (floorLog2 n 1 - 52) (-1074) = (n.log2 : Int) - 52 := by
    rw [floorLog2_one hn]
    omega
  have hfield : ((n.log2 : Int) - 52 + 1075).toNat = n.log2 + 1023 := by omega
  have hup : ((n.log2 : Int) - 52).toNat = n.log2 - 52 := by omega
  have hdown : (-((n.log2 : Int) - 52)).toNat = 52 - n.log2 := by omega
  rw [ofQuotient, if_neg hn]
  simp only [hscale, hfield, hup, hdown, Nat.shiftLeft_eq, Nat.one_mul]
  split
  · next h => rw [show 52 - n.log2 = 0 by omega, Nat.pow_zero, Nat.mul_one]
  · next h => rw [show n.log2 - 52 = 0 by omega, Nat.pow_zero]

theorem roundsTo_significand {n : Nat} :
    RoundsTo (n / 2 ^ ((n.log2 : ℤ) - 52))
      (roundDiv (n * 2 ^ (52 - n.log2)) (2 ^ (n.log2 - 52))) := by
  have h := roundsTo_roundDiv (n * 2 ^ (52 - n.log2)) (Nat.two_pow_pos (n.log2 - 52))
  have hup : ((n.log2 : Int) - 52).toNat = n.log2 - 52 := by omega
  have hdown : (-((n.log2 : Int) - 52)).toNat = 52 - n.log2 := by omega
  rw [two_zpow, hup, hdown, div_div_eq_mul_div]
  exact_mod_cast h

theorem log2_bounds {n : Nat} (hn : n ≠ 0) :
    (2 : ℚ) ^ (n.log2 : ℤ) ≤ n ∧ (n : ℚ) < 2 ^ ((n.log2 : ℤ) + 1) := by
  constructor
  · rw [zpow_natCast]
    exact_mod_cast Nat.log2_self_le hn
  · have h : n < 2 ^ (n.log2 + 1) := Nat.lt_log2_self
    rw [show (n.log2 : ℤ) + 1 = (n.log2 + 1 : Nat) by rfl, zpow_natCast]
    exact_mod_cast h

theorem significand_bounds {n : Nat} (hn : n ≠ 0) :
    (fractionLimit : ℚ) ≤ n / 2 ^ ((n.log2 : ℤ) - 52) ∧
      (n : ℚ) / 2 ^ ((n.log2 : ℤ) - 52) < 2 * fractionLimit := by
  obtain ⟨hlow, hhigh⟩ := log2_bounds hn
  have hpos := two_zpow_pos ((n.log2 : ℤ) - 52)
  rw [le_div_iff₀ hpos, div_lt_iff₀ hpos]
  have hlimit : (fractionLimit : ℚ) = 2 ^ 52 := by norm_num
  constructor
  · rw [hlimit, ← two_zpow_add_nat, show (n.log2 : ℤ) - 52 + (52 : Nat) = n.log2 by omega]
    exact hlow
  · rw [hlimit, ← pow_succ', ← two_zpow_add_nat,
      show (n.log2 : ℤ) - 52 + (53 : Nat) = n.log2 + 1 by omega]
    exact hhigh

theorem ofFields_eq_finite_iff {negative : Bool} {E m : Nat} {e : Fin 2047}
    {f : Fin fractionLimit} (hlow : fractionLimit ≤ m) (hhigh : m ≤ 2 * fractionLimit) :
    ofFields negative E m = finite negative e f ↔
      (E = e ∧ m = fractionLimit + f) ∨ (E + 1 = e ∧ m = 2 * fractionLimit ∧ f.val = 0) := by
  have hf := f.isLt
  rw [ofFields, dif_neg (Nat.not_lt.2 hlow)]
  by_cases hm : m < 2 * fractionLimit
  · rw [dif_pos hm]
    by_cases hE : E < 2047
    · simp only [dif_pos hE, finite.injEq, Fin.ext_iff, true_and]
      omega
    · have := e.isLt
      rw [dif_neg hE]
      refine iff_of_false (by rintro ⟨⟩) ?_
      omega
  · rw [dif_neg hm]
    by_cases hE : E + 1 < 2047
    · simp only [dif_pos hE, finite.injEq, Fin.ext_iff, true_and, Fin.val_zero]
      omega
    · have := e.isLt
      rw [dif_neg hE]
      refine iff_of_false (by rintro ⟨⟩) ?_
      omega

/-- An integer is rounded to a number whose significand is the integer nearest to the quotient by the
power of two that leaves a significand, or to the number above all those with that exponent. -/
theorem ofQuotient_one_eq_finite_iff {negative : Bool} {n : Nat} (hn : n ≠ 0) {e : Fin 2047}
    {f : Fin fractionLimit} : ofQuotient negative n 1 = finite negative e f ↔
      (n.log2 + 1023 = e ∧ RoundsTo (n / 2 ^ ((n.log2 : ℤ) - 52)) (fractionLimit + f)) ∨
        (n.log2 + 1024 = e ∧ f.val = 0 ∧
          RoundsTo (n / 2 ^ ((n.log2 : ℤ) - 52)) (2 * fractionLimit)) := by
  obtain ⟨hlow, hhigh⟩ := significand_bounds hn
  have hround := roundsTo_significand (n := n)
  rw [ofQuotient_one negative hn]
  generalize roundDiv (n * 2 ^ (52 - n.log2)) (2 ^ (n.log2 - 52)) = m at hround ⊢
  generalize (n : ℚ) / 2 ^ ((n.log2 : ℤ) - 52) = x at hround hlow hhigh ⊢
  obtain ⟨hmlow, hmhigh⟩ := hround.bounds
  have hm : fractionLimit ≤ m ∧ m ≤ 2 * fractionLimit := by
    constructor
    · have h : (fractionLimit : ℚ) < m + 1 := by linarith
      exact Nat.le_of_lt_succ (by exact_mod_cast h)
    · have h : (m : ℚ) < 2 * fractionLimit + 1 := by linarith
      exact Nat.le_of_lt_succ (by exact_mod_cast h)
  have hiff (q : Nat) : RoundsTo x q ↔ m = q :=
    ⟨hround.unique, fun h => h ▸ hround⟩
  rw [ofFields_eq_finite_iff hm.1 hm.2, hiff, hiff]
  omega

/-! ### Neighbourhoods -/

/-- The number lies between the ends of the neighbourhood. -/
def Neighbourhood.Contains (nb : Neighbourhood) (x : ℚ) : Prop :=
  if nb.closed then (nb.low : ℚ) / nb.den ≤ x ∧ x ≤ nb.high / nb.den
  else (nb.low : ℚ) / nb.den < x ∧ x < nb.high / nb.den

theorem closed_neighbourhood (e : Fin 2047) (f : Fin fractionLimit) :
    (neighbourhood e f).closed = decide (significand e f % 2 = 0) := rfl

/-- Multiples of a quarter of the last bit. -/
theorem quarter_eq (e : Fin 2047) (c : Nat) :
    ((c * 1 <<< (scale e - 2).toNat : Nat) : ℚ) / (1 <<< (-(scale e - 2)).toNat : Nat) =
      c / 4 * 2 ^ scale e := by
  have h : (2 : ℚ) ^ scale e = 4 * 2 ^ (scale e - 2) := by
    rw [show scale e = scale e - 2 + (2 : Nat) by omega, two_zpow_add_nat]
    norm_num
  rw [h, two_zpow (scale e - 2), Nat.shiftLeft_eq, Nat.shiftLeft_eq]
  push_cast
  ring

section Neighbourhood

variable {e : Fin 2047} {f : Fin fractionLimit}

theorem significand_of_pos (he : 0 < e.val) : significand e f = fractionLimit + f :=
  if_neg fun h => absurd (congrArg Fin.val h) (Nat.ne_of_gt he)

theorem scale_of_pos (he : 0 < e.val) : scale e = e - 1075 := by
  rw [scale]
  omega

/-- How far the neighbourhood reaches down, in quarters of the last bit: beneath a power of two the
numbers are denser. -/
def reach (e : Fin 2047) (f : Fin fractionLimit) : Nat := if f.val = 0 ∧ 1 < e.val then 1 else 2

theorem reach_eq_one_or_two (e : Fin 2047) (f : Fin fractionLimit) :
    reach e f = 1 ∧ f.val = 0 ∧ 1 < e.val ∨ reach e f = 2 ∧ ¬ (f.val = 0 ∧ 1 < e.val) := by
  rw [reach]
  split
  · next h => exact .inl ⟨rfl, h⟩
  · next h => exact .inr ⟨rfl, h⟩

theorem low_div_den (he : 0 < e.val) : ((neighbourhood e f).low : ℚ) / (neighbourhood e f).den =
    (significand e f - reach e f / 4) * 2 ^ scale e := by
  have hle : reach e f ≤ 4 * significand e f := by
    rw [significand_of_pos he]
    rcases reach_eq_one_or_two e f with ⟨h, -⟩ | ⟨h, -⟩ <;> omega
  refine (quarter_eq e (4 * significand e f - reach e f)).trans ?_
  rw [Nat.cast_sub hle]
  push_cast
  ring

theorem value_div_den (e : Fin 2047) (f : Fin fractionLimit) :
    ((neighbourhood e f).value : ℚ) / (neighbourhood e f).den = exact e f := by
  refine (quarter_eq e (4 * significand e f)).trans ?_
  rw [exact]
  push_cast
  ring

theorem high_div_den (e : Fin 2047) (f : Fin fractionLimit) :
    ((neighbourhood e f).high : ℚ) / (neighbourhood e f).den =
      (significand e f + 1 / 2) * 2 ^ scale e := by
  refine (quarter_eq e (4 * significand e f + 2)).trans ?_
  push_cast
  ring

/-- Measured in last bits, the neighbourhood reaches half a bit up, and half or a quarter of one
down. -/
theorem contains_iff (he : 0 < e.val) {y : ℚ} : (neighbourhood e f).Contains y ↔
    if significand e f % 2 = 0 then
      significand e f - (reach e f : ℚ) / 4 ≤ y / 2 ^ scale e ∧
        y / 2 ^ scale e ≤ significand e f + 1 / 2
    else significand e f - (reach e f : ℚ) / 4 < y / 2 ^ scale e ∧
        y / 2 ^ scale e < significand e f + 1 / 2 := by
  have hpos := two_zpow_pos (scale e)
  rw [Neighbourhood.Contains, closed_neighbourhood, low_div_den he, high_div_den,
    le_div_iff₀ hpos, div_le_iff₀ hpos, lt_div_iff₀ hpos, div_lt_iff₀ hpos]
  simp only [decide_eq_true_eq]

theorem bounds_of_contains (he : 0 < e.val) {y : ℚ} (h : (neighbourhood e f).Contains y) :
    significand e f - (reach e f : ℚ) / 4 ≤ y / 2 ^ scale e ∧
      y / 2 ^ scale e ≤ significand e f + 1 / 2 := by
  rw [contains_iff he] at h
  split at h
  · exact h
  · exact ⟨h.1.le, h.2.le⟩

/-- The leading bit of an integer in the neighbourhood is that of the significand, or the one below
it if the integer lies beneath a power of two. -/
theorem log2_of_contains {n : Nat} (hn : n ≠ 0) (he : 0 < e.val)
    (h : (neighbourhood e f).Contains n) : n.log2 + 1023 = e ∨ n.log2 + 1024 = e := by
  obtain ⟨hlow, hhigh⟩ := bounds_of_contains he h
  obtain ⟨hnlow, hnhigh⟩ := log2_bounds hn
  have hscale := scale_of_pos he
  have hpos := two_zpow_pos (scale e)
  have hf : (f : ℚ) + 1 ≤ fractionLimit := by exact_mod_cast f.isLt
  have hreach : (reach e f : ℚ) ≤ 2 := by
    rcases reach_eq_one_or_two e f with ⟨h, -⟩ | ⟨h, -⟩ <;> rw [h] <;> norm_num
  have hlimit : (fractionLimit : ℚ) = 2 ^ 52 := by norm_num
  rw [le_div_iff₀ hpos] at hlow
  rw [div_le_iff₀ hpos] at hhigh
  rw [significand_of_pos he] at hlow hhigh
  push_cast at hlow hhigh
  -- the bounds, as powers of two
  have hup : (2 : ℚ) ^ (n.log2 : ℤ) < 2 ^ (scale e + (53 : Nat)) := by
    rw [two_zpow_add_nat]
    refine (hnlow.trans hhigh).trans_lt (mul_lt_mul_of_pos_right ?_ hpos)
    linarith
  have hdown : (2 : ℚ) ^ (scale e + (51 : Nat)) < 2 ^ ((n.log2 : ℤ) + 1) := by
    rw [two_zpow_add_nat]
    refine (lt_of_lt_of_le (mul_lt_mul_of_pos_right ?_ hpos) hlow).trans hnhigh
    have : (0 : ℚ) ≤ f := Nat.cast_nonneg _
    linarith
  rw [zpow_lt_zpow_iff_right₀ (by norm_num)] at hup hdown
  omega

/-- The integers that are rounded to a number are those in its neighbourhood. -/
theorem ofQuotient_one_eq_iff_contains {negative : Bool} {n : Nat} (hn : n ≠ 0) (he : 0 < e.val) :
    ofQuotient negative n 1 = finite negative e f ↔ (neighbourhood e f).Contains n := by
  have hscale := scale_of_pos he
  obtain ⟨hlow, hhigh⟩ := significand_bounds hn
  have hlimit : fractionLimit % 2 = 0 := rfl
  rw [ofQuotient_one_eq_finite_iff hn]
  by_cases hsame : n.log2 + 1023 = e
  · have hplace : (n.log2 : ℤ) - 52 = scale e := by omega
    have hnext : n.log2 + 1024 ≠ e := by omega
    rw [hplace] at hlow hhigh ⊢
    simp only [hsame, hnext, true_and, false_and, or_false]
    rw [contains_iff he, significand_of_pos he, roundsTo_iff]
    generalize (n : ℚ) / 2 ^ scale e = x at hlow hhigh ⊢
    rcases reach_eq_one_or_two e f with ⟨hreach, hf, -⟩ | ⟨hreach, -⟩
    · -- what lies beneath the power of two has its leading bit one place lower
      rw [hreach, hf, Nat.add_zero, if_pos hlimit, if_pos hlimit]
      push_cast at hlow ⊢
      constructor
      · exact fun h => ⟨by linarith, h.2⟩
      · exact fun h => ⟨by linarith, h.2⟩
    · rw [hreach]
      norm_num
  · by_cases hbelow : n.log2 + 1024 = e
    · have hplace : (n.log2 : ℤ) - 52 + 1 = scale e := by omega
      have hhalf : (n : ℚ) / 2 ^ scale e = n / 2 ^ ((n.log2 : ℤ) - 52) / 2 := by
        rw [← hplace, zpow_add_one₀ (by norm_num), div_div]
      simp only [hsame, hbelow, true_and, false_and, false_or]
      rw [contains_iff he, significand_of_pos he, roundsTo_iff, hhalf]
      generalize (n : ℚ) / 2 ^ ((n.log2 : ℤ) - 52) = x at hlow hhigh ⊢
      rcases reach_eq_one_or_two e f with ⟨hreach, hf, -⟩ | ⟨hreach, hf⟩
      · have hdouble : 2 * fractionLimit % 2 = 0 := rfl
        rw [hreach, hf, Nat.add_zero, if_pos hlimit, if_pos hdouble]
        push_cast at hlow hhigh ⊢
        constructor
        · exact fun ⟨_, h, _⟩ => ⟨by linarith, by linarith⟩
        · exact fun h => ⟨trivial, by linarith, by linarith⟩
      · have hf : f.val ≠ 0 := fun h => hf ⟨h, by omega⟩
        have hpos : (1 : ℚ) ≤ f := by exact_mod_cast Nat.one_le_iff_ne_zero.2 hf
        refine iff_of_false (fun h => hf h.1) fun h => ?_
        have hle : ((fractionLimit + f : Nat) : ℚ) - (reach e f : ℚ) / 4 ≤ x / 2 := by
          split at h
          · exact h.1
          · exact h.1.le
        rw [hreach] at hle
        push_cast at hle hhigh
        linarith
    · refine iff_of_false ?_ fun h => (log2_of_contains hn he h).elim hsame hbelow
      rintro (⟨h, -⟩ | ⟨h, -⟩)
      · exact hsame h
      · exact hbelow h

theorem two_pow_le_ten_pow (k : Nat) : 2 ^ (93 * k + 1) ≤ 10 ^ (28 * k + 1) := by
  induction k with
  | zero => decide
  | succ k ih =>
    rw [show 93 * (k + 1) + 1 = 93 + (93 * k + 1) by omega,
      show 28 * (k + 1) + 1 = 28 + (28 * k + 1) by omega, pow_add, pow_add 10]
    exact Nat.mul_le_mul (by norm_num) ih

/-- An integer of at most `1024` bits has at most `309` digits. -/
theorem decimalLength_le_of_log2_lt {n : Nat} (hlog : n.log2 < 1024) : decimalLength n ≤ 309 := by
  obtain ⟨k, hbits, hdigits⟩ : ∃ k, 1024 ≤ 93 * k + 1 ∧ 28 * k + 1 ≤ 309 :=
    ⟨11, by decide, by decide⟩
  have hlt : n < 10 ^ (28 * k + 1) := calc
    n < 2 ^ (n.log2 + 1) := Nat.lt_log2_self
    _ ≤ 2 ^ (93 * k + 1) := Nat.pow_le_pow_right (by decide) (Nat.le_trans hlog hbits)
    _ ≤ 10 ^ (28 * k + 1) := two_pow_le_ten_pow k
  exact ((Nat.length_toDigits_le_iff (by decide) (Nat.succ_pos _)).2 hlt).trans hdigits

/-- Reading is rounding: no integer in the neighbourhood has too many digits to be read by it. -/
theorem ofDecimal_eq_finite_iff {negative : Bool} {n : Nat} (hn : n ≠ 0) (he : 0 < e.val) :
    ofDecimal negative n 0 = finite negative e f ↔ (neighbourhood e f).Contains n := by
  have hlow : ¬ (n = 0 ∨ ((decimalLength n : Int) + 0) < -330) := by omega
  rw [ofDecimal, if_neg hlow]
  by_cases hhigh : 310 < (decimalLength n : Int) + 0
  · rw [if_pos hhigh]
    refine iff_of_false (by rintro ⟨⟩) fun h => ?_
    have hlog : n.log2 < 1024 := by
      have := e.isLt
      rcases log2_of_contains hn he h with h | h <;> omega
    have hlength := decimalLength_le_of_log2_lt hlog
    omega
  · rw [if_neg hhigh, if_pos (Int.le_refl 0), Int.toNat_zero, powerOfTen_zero, Nat.mul_one]
    exact ofQuotient_one_eq_iff_contains hn he

end Neighbourhood

end ScriptBlocks.Binary64
