import ScriptBlocks.Number.Binary64

/-!
# Number literals

Reading integers and decimals from text. Only ASCII digits count: a digit of another script is
refused here, although a pattern may have let it through.

## Main definitions

* `NumeralFault` — why a text is not a number
* `Text.readInteger` — a 64-bit integer from a run of digits
* `Text.readDecimal` — the nearest binary64 number
-/

namespace ScriptBlocks

/-- Why a text cannot be read as a number. -/
inductive NumeralFault where
  | invalidDigit
  | tooLarge
  | invalidDecimal
deriving DecidableEq

def NumeralFault.message : NumeralFault → String
  | invalidDigit => "invalid digit found in string"
  | tooLarge => "number too large to fit in target type"
  | invalidDecimal => "invalid float literal"

namespace Text

/-- The value of an ASCII digit. -/
def digitValue? (c : Char) : Option Nat :=
  if c.isDigit then some (c.toNat - '0'.toNat) else none

/-- Continues the reading of a non-negative integer. The first character that is not a digit, or
that takes the number out of range, decides the fault; a character that does both counts as not a
digit. -/
def readIntegerFrom (acc : Nat) : List Char → Except NumeralFault Nat
  | [] => .ok acc
  | c :: rest =>
    match digitValue? c with
    | none => .error .invalidDigit
    | some d =>
      if 10 * acc + d < integerLimit then readIntegerFrom (10 * acc + d) rest else .error .tooLarge

/-- Reads a run of digits as a 64-bit signed integer. -/
def readInteger (s : List Char) : Except NumeralFault Int64 :=
  (readIntegerFrom 0 s).map Int64.ofNat

/-- The leading ASCII digits and what follows them. -/
def spanDigits (s : List Char) : List Char × List Char := s.span Char.isDigit

/-- The number whose digits are `ds`. -/
def ofDigits (ds : List Char) : Nat := ds.foldl (fun n c => 10 * n + (c.toNat - '0'.toNat)) 0

/-- Splits a sign off. -/
def splitSign : List Char → Bool × List Char
  | '-' :: rest => (true, rest)
  | '+' :: rest => (false, rest)
  | s => (false, s)

/-- Reads an optional exponent that ends the text. -/
def readExponent : List Char → Option Int
  | [] => some 0
  | e :: rest =>
    if e = 'e' ∨ e = 'E' then
      let (negative, ds) := splitSign rest
      if ds ≠ [] ∧ ds.all Char.isDigit then
        some (if negative then -(ofDigits ds : Int) else ofDigits ds)
      else none
    else none

/-- Splits the digits after a point off; none without a point. -/
def spanFraction : List Char → List Char × List Char
  | '.' :: rest => spanDigits rest
  | s => ([], s)

/-- Reads an unsigned decimal: digits before or after a point, then an optional exponent. -/
def readUnsigned (negative : Bool) (s : List Char) : Option Binary64 := do
  let (whole, rest) := spanDigits s
  let (places, rest) := spanFraction rest
  if whole = [] ∧ places = [] then none
  else
    let e ← readExponent rest
    some (.ofDecimal negative (ofDigits (whole ++ places)) (e - places.length))

/-- Reads a decimal, or one of the names of the numbers that are not finite. -/
def readDecimal (s : List Char) : Option Binary64 :=
  let (negative, rest) := splitSign s
  match String.ofList (rest.map Char.toLower) with
  | "inf" | "infinity" => some (.infinite negative)
  | "nan" => some .nan
  | _ => readUnsigned negative rest

end Text

end ScriptBlocks
