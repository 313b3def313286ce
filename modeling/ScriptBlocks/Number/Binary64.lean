import ScriptBlocks.Number.Limit

/-!
# Binary floating point

The numbers of the IEEE 754 binary64 format, as their three fields. A finite number is its
significand times a power of two; the fields determine the number and the number determines them.
All arithmetic goes through one rounding function on exact quotients of natural numbers: to the
nearest number of the format, a tie to the one with the even significand.

## Main definitions

* `Binary64` — the type, with `Binary64.significand` and `Binary64.scale` for its finite numbers
* `Binary64.ofQuotient` — rounding of an exact quotient
* `Binary64.ofDecimal` — the number nearest to a decimal
* `Binary64.mul`, `Binary64.div` — the rounded product and quotient
* `Binary64.toInt?` — the integer that a number is, if it is one
-/

namespace ScriptBlocks

/-- How many fractions there are: `2 ^ 52`. -/
abbrev Binary64.fractionLimit : Nat := 4503599627370496

/-- A binary64 number. An exponent field of zero marks zero and the subnormal numbers. -/
inductive Binary64 where
  | nan
  | infinite (negative : Bool)
  | finite (negative : Bool) (exponent : Fin 2047) (fraction : Fin Binary64.fractionLimit)
deriving DecidableEq

namespace Binary64

instance : Inhabited Binary64 := ⟨finite false 0 0⟩

/-- The significand given by the two fields of a finite number. -/
def significand (exponent : Fin 2047) (fraction : Fin fractionLimit) : Nat :=
  if exponent = 0 then fraction else fractionLimit + fraction

/-- The power of two that the significand is multiplied by. -/
def scale (exponent : Fin 2047) : Int := max (exponent : Int) 1 - 1075

/-- The quotient `num / den` rounded to the nearest integer, a tie to the even one. -/
def roundDiv (num den : Nat) : Nat :=
  let q := num / den
  let r := num % den
  if 2 * r < den then q
  else if den < 2 * r then q + 1
  else q + q % 2

/-- The greatest `e` with `2 ^ e ≤ num / den`, for positive `num` and `den`. -/
def floorLog2 (num den : Nat) : Int :=
  let e : Int := (num.log2 : Int) - den.log2
  let reached := if 0 ≤ e then den <<< e.toNat ≤ num else den ≤ num <<< (-e).toNat
  if reached then e else e - 1

/-- The number with significand `m ≤ 2 ^ 53` at exponent field `e`. A significand without its
leading bit belongs to a subnormal number, and one that rounding carried to `2 ^ 53` moves to the
next exponent; beyond the last exponent lies infinity. -/
def ofFields (negative : Bool) (e m : Nat) : Binary64 :=
  if sub : m < fractionLimit then finite negative 0 ⟨m, sub⟩
  else if norm : m < 2 * fractionLimit then
    if h : e < 2047 then finite negative ⟨e, h⟩ ⟨m - fractionLimit, by omega⟩ else infinite negative
  else if h : e + 1 < 2047 then finite negative ⟨e + 1, h⟩ 0 else infinite negative

/-- The number nearest to `num / den`, with the given sign. -/
def ofQuotient (negative : Bool) (num den : Nat) : Binary64 :=
  if num = 0 then finite negative 0 0
  else
    let scale := max (floorLog2 num den - 52) (-1074)
    let m :=
      if 0 ≤ scale then roundDiv num (den <<< scale.toNat)
      else roundDiv (num <<< (-scale).toNat) den
    ofFields negative (scale + 1075).toNat m

/-- The number nearest to `m * 2 ^ e`. -/
def ofBinary (negative : Bool) (m : Nat) (e : Int) : Binary64 :=
  if 0 ≤ e then ofQuotient negative (m <<< e.toNat) 1
  else ofQuotient negative m (1 <<< (-e).toNat)

/-- How many decimal digits `n` has; one for zero. -/
def decimalLength (n : Nat) : Nat := (Nat.toDigits 10 n).length

/-- The number nearest to `digits * 10 ^ e`. Decimals far outside the range of the format are
settled by their length alone. -/
def ofDecimal (negative : Bool) (digits : Nat) (e : Int) : Binary64 :=
  let magnitude : Int := decimalLength digits + e
  if digits = 0 ∨ magnitude < -330 then finite negative 0 0
  else if 310 < magnitude then infinite negative
  else if 0 ≤ e then ofQuotient negative (digits * powerOfTen e.toNat) 1
  else ofQuotient negative digits (powerOfTen (-e).toNat)

def ofNat (n : Nat) : Binary64 := ofQuotient false n 1

def ofInt (i : Int) : Binary64 := ofQuotient (i < 0) i.natAbs 1

instance (n : Nat) : OfNat Binary64 n := ⟨ofNat n⟩

instance : OfScientific Binary64 :=
  ⟨fun digits down e => ofDecimal false digits (if down then -(e : Int) else e)⟩

/-- The rounded product. -/
def mul : Binary64 → Binary64 → Binary64
  | nan, _ | _, nan => nan
  | finite s e f, finite t d g =>
    ofBinary (s != t) (significand e f * significand d g) (scale e + scale d)
  | infinite s, infinite t => infinite (s != t)
  | infinite s, finite t d g | finite t d g, infinite s =>
    if significand d g = 0 then nan else infinite (s != t)

/-- The rounded quotient. -/
def div : Binary64 → Binary64 → Binary64
  | nan, _ | _, nan => nan
  | finite s e f, finite t d g =>
    let num := significand e f
    let den := significand d g
    if den = 0 then (if num = 0 then nan else infinite (s != t))
    else
      let shift := scale e - scale d
      if 0 ≤ shift then ofQuotient (s != t) (num <<< shift.toNat) den
      else ofQuotient (s != t) num (den <<< (-shift).toNat)
  | infinite _, infinite _ => nan
  | infinite s, finite t _ _ => infinite (s != t)
  | finite s _ _, infinite t => finite (s != t) 0 0

/-- The same number with the opposite sign. -/
def neg : Binary64 → Binary64
  | nan => nan
  | infinite s => infinite !s
  | finite s e f => finite (!s) e f

/-- The integer that the number is, if it is finite and has no fraction. -/
def toInt? : Binary64 → Option Int
  | finite s e f =>
    let m := significand e f
    let shift := (-(scale e)).toNat
    let whole : Option Nat :=
      if 0 ≤ scale e then some (m <<< (scale e).toNat)
      else if m % (1 <<< shift) = 0 then some (m >>> shift)
      else none
    whole.map fun n => if s then -(n : Int) else n
  | _ => none

def isInfinite : Binary64 → Bool
  | infinite _ => true
  | _ => false

def isZero : Binary64 → Bool
  | finite _ e f => significand e f = 0
  | _ => false

end Binary64

end ScriptBlocks
