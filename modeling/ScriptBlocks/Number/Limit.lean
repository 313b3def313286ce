/-!
# Limits of 64-bit numbers

Values are integers of 64 bits with a sign, ids are numbers of 64 bits without one. Decimals are
scaled by powers of ten that need not fit in any number of bits.

## Main definitions

* `wordLimit`, `integerLimit` — the least numbers that no longer fit
* `powerOfTen` — the powers of ten
-/

namespace ScriptBlocks

/-- The least natural number that does not fit in 64 bits. -/
abbrev wordLimit : Nat := 18446744073709551616

/-- The least natural number that does not fit in 64 bits of which one is the sign. -/
abbrev integerLimit : Nat := 9223372036854775808

/-- Ten multiplied by itself, `n` factors in all. -/
def powerOfTen (n : Nat) : Nat := Nat.pow 10 n

@[simp] theorem powerOfTen_zero : powerOfTen 0 = 1 := rfl

theorem powerOfTen_succ (n : Nat) : powerOfTen (n + 1) = powerOfTen n * 10 := rfl

theorem powerOfTen_pos (n : Nat) : 0 < powerOfTen n := by
  induction n with
  | zero => decide
  | succ n ih => rw [powerOfTen_succ]; omega

end ScriptBlocks
