import ScriptBlocks.Json.Basic

/-!
# The value of a JSON number

An integer is taken exactly. For a float, the digits are collected in a 64-bit number for as long as
they fit; the digits that no longer fit count before the point by their number only, and not at all
after it. What was collected is rounded to a float, and the power of ten is then applied to that
float, in steps of at most `10 ^ 308`. So a number with few digits and a small exponent is rounded
once, and other numbers may be off by a unit in the last place. A number beyond the range of the
format has no value.

## Main definitions

* `Json.Number.integer?` — the integer that a number is, if it is written as one
* `Json.Number.float?` — the number as a float
-/

namespace ScriptBlocks.Json.Number

/-- The integer that a number is written as. Minus zero is not an integer. -/
def integer? (n : Number) : Option Int :=
  if n.places = [] ∧ n.exponent = none ∧ ¬(n.negative ∧ n.whole = 0) then
    some (if n.negative then -(n.whole : Int) else n.whole)
  else none

/-- The natural number below `2 ^ 64` that a number is written as. -/
def natural? (n : Number) : Option Nat :=
  match n.integer? with
  | some (.ofNat k) => if k < wordLimit then some k else none
  | _ => none

/-- Appends digits to a number for as long as it fits in 64 bits; gives the digits that are left. -/
def collect (acc : Nat) : List Char → Nat × List Char
  | [] => (acc, [])
  | c :: rest =>
    let next := 10 * acc + (c.toNat - '0'.toNat)
    if next < wordLimit then collect next rest else (acc, c :: rest)

/-- Applies a power of ten to a float, at most `fuel` factors of `10 ^ (-308)` before the last
one. -/
def applyPower : Nat → Binary64 → Int → Option Binary64
  | fuel, x, e =>
    if e.natAbs ≤ 308 then
      let power := Binary64.ofDecimal false 1 e.natAbs
      if e < 0 then some (x.div power)
      else
        let y := x.mul power
        if y.isInfinite then none else some y
    else if x.isZero then some x
    else if 0 ≤ e then none
    else match fuel with
      | 0 => some x
      | fuel + 1 => applyPower fuel (x.div (.ofDecimal false 1 308)) (e + 308)

/-- The least magnitude of an exponent that counts as beyond all bounds: `2 ^ 31`. -/
def exponentLimit : Nat := 2147483648

/-- The magnitude of a number that is written with a fraction or an exponent, or is too long to be
collected. -/
def magnitude? (n : Number) : Option Binary64 :=
  let (whole, surplus) := collect 0 (Nat.toDigits 10 n.whole)
  let (digits, dropped) := collect whole n.places
  let shift : Int := surplus.length - (n.places.length - dropped.length : Nat)
  let e := n.exponent.getD 0
  if exponentLimit ≤ e.natAbs then if digits ≠ 0 ∧ 0 ≤ e then none else some 0
  else applyPower 4 (.ofNat digits) (shift + e)

/-- The number as a float. -/
def float? (n : Number) : Option Binary64 :=
  let magnitude :=
    if n.places = [] ∧ n.exponent = none ∧ n.whole < wordLimit then some (.ofNat n.whole)
    else n.magnitude?
  magnitude.map fun x => if n.negative then x.neg else x

end ScriptBlocks.Json.Number
