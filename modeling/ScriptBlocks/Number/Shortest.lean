import ScriptBlocks.Number.Binary64

/-!
# Shortest decimals

Every finite binary64 number is written with the fewest significant digits that read back as the
same number, and among those with the digits nearest to it. The decimals that read back fill an
interval around the number, closed when its significand is even. On the grid of decimals with a
given last place only the two neighbours of the number need to be looked at: if the interval holds
a point of the grid, it holds one of the two.

## Main definitions

* `Decimal` — a digit string and a power of ten
* `Binary64.shortest` — the shortest decimal of a positive finite number
-/

namespace ScriptBlocks

/-- The number `digits * 10 ^ exponent`. -/
structure Decimal where
  digits : Nat
  exponent : Int
deriving DecidableEq

/-- What to take when two shortest decimals are equally near. -/
inductive TieRule where
  /-- The greater one. -/
  | up
  /-- The one whose last digit is even. -/
  | even

namespace Decimal

/-- Drops trailing zeros of the digits, at most `fuel` of them. -/
def trimZeros : Nat → Decimal → Decimal
  | 0, d => d
  | fuel + 1, d =>
    if d.digits ≠ 0 ∧ d.digits % 10 = 0 then trimZeros fuel ⟨d.digits / 10, d.exponent + 1⟩ else d

/-- Writes the decimal without an exponent: digits, then a point and more digits if there is a
fraction. -/
def positional (d : Decimal) : List Char × List Char :=
  let ds := Nat.toDigits 10 d.digits
  if 0 ≤ d.exponent then (ds ++ List.replicate d.exponent.toNat '0', [])
  else
    let places := (-d.exponent).toNat
    if places < ds.length then (ds.take (ds.length - places), ds.drop (ds.length - places))
    else (['0'], List.replicate (places - ds.length) '0' ++ ds)

end Decimal

namespace Binary64

/-- The decimals that read back as a number: `low / den` to `high / den` around `value / den`. -/
structure Neighbourhood where
  low : Nat
  value : Nat
  high : Nat
  den : Nat
  closed : Bool

/-- The neighbourhood of the positive finite number with the given fields. Below a power of two
the numbers lie twice as dense as above it. -/
def neighbourhood (e : Fin 2047) (f : Fin fractionLimit) : Neighbourhood :=
  let m := significand e f
  let below := if f.val = 0 ∧ 1 < e.val then 1 else 2
  let shift := scale e - 2
  let up := 1 <<< shift.toNat
  { low := (4 * m - below) * up
    value := 4 * m * up
    high := (4 * m + 2) * up
    den := 1 <<< (-shift).toNat
    closed := m % 2 = 0 }

namespace Neighbourhood

/-- The two sides of comparing `d * 10 ^ k` with `n / den`, as natural numbers. -/
def cross (nb : Neighbourhood) (k : Int) (d n : Nat) : Nat × Nat :=
  (d * powerOfTen k.toNat * nb.den, n * powerOfTen (-k).toNat)

/-- Whether `d * 10 ^ k` reads back as the number. -/
def holds (nb : Neighbourhood) (k : Int) (d : Nat) : Bool :=
  let (x, low) := nb.cross k d nb.low
  let (_, high) := nb.cross k d nb.high
  if nb.closed then low ≤ x && x ≤ high else low < x && x < high

/-- The greatest `e` with `10 ^ e` at most the value, found by trying from `start` down. -/
def magnitude (nb : Neighbourhood) : Nat → Int → Int
  | 0, start => start
  | fuel + 1, start =>
    let (x, v) := nb.cross start 1 nb.value
    if x ≤ v then start else nb.magnitude fuel (start - 1)

/-- The point of the grid of multiples of `10 ^ k` that is nearest to the value among those that
read back, if the grid has one. -/
def onGrid (nb : Neighbourhood) (tie : TieRule) (k : Int) : Option Decimal :=
  let (unit, v) := nb.cross k 1 nb.value
  let below := v / unit
  match nb.holds k below, nb.holds k (below + 1) with
  | false, false => none
  | true, false => some ⟨below, k⟩
  | false, true => some ⟨below + 1, k⟩
  | true, true =>
    let twice := 2 * (v % unit)
    let upper : Bool :=
      if twice = unit then (match tie with | .up => true | .even => decide (below % 2 = 1))
      else decide (unit < twice)
    some ⟨if upper then below + 1 else below, k⟩

end Neighbourhood

/-- The shortest decimal that reads back as the positive finite number with the given fields. Its
last place is sought from the leading digit down; seventeen digits always suffice. -/
def shortest (tie : TieRule) (e : Fin 2047) (f : Fin fractionLimit) : Decimal :=
  let nb := neighbourhood e f
  let start : Int := decimalLength (nb.value / nb.den)
  let top := nb.magnitude 330 start
  let found := (List.range 17).findSome? fun i : Nat => nb.onGrid tie (top - i)
  (found.getD ⟨0, 0⟩).trimZeros 20

/-- The text of a number in a block's source: without an exponent, and without a point when the
number is an integer. -/
def toText : Binary64 → String
  | nan => "NaN"
  | infinite s => if s then "-inf" else "inf"
  | finite s e f =>
    let sign := if s then "-" else ""
    if significand e f = 0 then sign ++ "0"
    else
      let (whole, places) := (shortest .up e f).positional
      sign ++ String.ofList (if places = [] then whole else whole ++ '.' :: places)

end Binary64

end ScriptBlocks
