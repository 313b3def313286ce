import ScriptBlocks.Json.Quoted
import ScriptBlocks.Number.Shortest
import ScriptBlocks.Number.Literal

/-!
# JSON documents

A document is kept as it is written: numbers by their digits, strings by what stands between their
quotes, objects with all their members in order. What a number or a string means is decided where it
is used, so that a document may hold, in places nobody reads, numbers that no format can represent
and strings that name no characters.

## Main definitions

* `Json` — documents
* `Json.Number` — a number as written
* `Json.ofText`, `Json.ofInt`, `Json.ofFloat` — documents for values
-/

namespace ScriptBlocks

/-- A number as written. -/
structure Json.Number where
  negative : Bool
  /-- The digits before the point, as a number: they have no leading zeros. -/
  whole : Nat
  /-- The digits after the point; none without a point. -/
  places : List Char
  exponent : Option Int
deriving DecidableEq

/-- A JSON document. Strings and keys are the texts between the quotes, with their escapes. -/
inductive Json where
  | null
  | bool (b : Bool)
  | number (n : Json.Number)
  | string (raw : List Char)
  | array (items : List Json)
  | object (members : List (List Char × Json))

namespace Json

instance : Inhabited Json := ⟨null⟩

/-- The string with a given text. -/
def ofText (s : String) : Json := string (escape s.toList)

/-- The object with the given keys and values. -/
def ofMembers (members : List (String × Json)) : Json :=
  object (members.map fun (k, j) => (escape k.toList, j))

def ofNat (n : Nat) : Json := number ⟨false, n, [], none⟩

def ofInt (i : Int) : Json := number ⟨i < 0, i.natAbs, [], none⟩

/-- `null` for nothing. -/
def ofOption {α : Type} (f : α → Json) : Option α → Json
  | none => null
  | some a => f a

/-- The written form of a positive decimal: positional from `1e-5` to below `1e16`, with at least
one digit after the point, and with an exponent otherwise. -/
def Number.ofDecimal (negative : Bool) (d : Decimal) : Number :=
  let ds := Nat.toDigits 10 d.digits
  let magnitude := (ds.length : Int) + d.exponent
  if -5 < magnitude ∧ magnitude ≤ 16 then
    let (whole, places) := d.positional
    ⟨negative, Text.ofDigits whole, if places = [] then ['0'] else places, none⟩
  else
    ⟨negative, d.digits / powerOfTen (ds.length - 1), ds.drop 1, some (magnitude - 1)⟩

/-- A float by its shortest decimal; of two that are equally near, the one with the even last digit.
There is no number for infinities and the like, which become `null`. -/
def ofFloat : Binary64 → Json
  | .finite s e f =>
    if Binary64.significand e f = 0 then number ⟨s, 0, ['0'], none⟩
    else number (.ofDecimal s (Binary64.shortest .even e f))
  | _ => null

end Json

end ScriptBlocks
