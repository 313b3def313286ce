import ScriptBlocks.Json.Basic

/-!
# Reading JSON

The grammar is taken strictly: one value with white space around it, no comments, no trailing commas,
no leading zeros, and no control characters in strings. The number of steps is bounded by the length
of the text, which is the fuel that the reader is given.

## Main definitions

* `Json.parse` — the document that a text is, if it is one
-/

namespace ScriptBlocks.Json

/-- The white space of the grammar. -/
def isBlank (c : Char) : Bool := c = ' ' || c = '\n' || c = '\t' || c = '\r'

def skipBlanks (s : List Char) : List Char := s.dropWhile isBlank

/-- Reads the inside of a string literal up to its closing quote, which is dropped. -/
def readRaw : List Char → Option (List Char × List Char)
  | [] => none
  | '"' :: rest => some ([], rest)
  | '\\' :: 'u' :: a :: b :: c :: d :: rest => do
    let _ ← hex4? a b c d
    let (raw, rest) ← readRaw rest
    return ('\\' :: 'u' :: a :: b :: c :: d :: raw, rest)
  | '\\' :: c :: rest => do
    let _ ← escapedChar? c
    let (raw, rest) ← readRaw rest
    return ('\\' :: c :: raw, rest)
  | c :: rest => do
    if c = '\\' ∨ c.toNat < 32 then none
    let (raw, rest) ← readRaw rest
    return (c :: raw, rest)

/-- The leading digits and what follows them; at least one digit is required. -/
def readDigits (s : List Char) : Option (List Char × List Char) :=
  match s.span Char.isDigit with
  | ([], _) => none
  | (ds, rest) => some (ds, rest)

/-- Reads the digits before the point. A zero is not followed by further digits. -/
def readWhole : List Char → Option (Nat × List Char)
  | '0' :: rest => some (0, rest)
  | s => (readDigits s).map fun (ds, rest) => (Text.ofDigits ds, rest)

/-- Reads a point with digits, if there is a point. -/
def readPlaces : List Char → Option (List Char × List Char)
  | '.' :: rest => readDigits rest
  | rest => some ([], rest)

/-- Reads the sign and digits of an exponent. -/
def readScale : List Char → Option (Int × List Char)
  | '-' :: rest => (readDigits rest).map fun (ds, rest) => (-(Text.ofDigits ds : Int), rest)
  | '+' :: rest => (readDigits rest).map fun (ds, rest) => ((Text.ofDigits ds : Int), rest)
  | rest => (readDigits rest).map fun (ds, rest) => ((Text.ofDigits ds : Int), rest)

/-- Reads an exponent, if there is one. -/
def readExponent : List Char → Option (Option Int × List Char)
  | 'e' :: rest | 'E' :: rest => (readScale rest).map fun (e, rest) => (some e, rest)
  | rest => some (none, rest)

/-- Reads a number without its sign. -/
def readNumber (negative : Bool) (s : List Char) : Option (Json × List Char) := do
  let (whole, rest) ← readWhole s
  let (places, rest) ← readPlaces rest
  let (exponent, rest) ← readExponent rest
  return (number ⟨negative, whole, places, exponent⟩, rest)

/-- Reads a value that is neither an array nor an object. -/
def readScalar : List Char → Option (Json × List Char)
  | 'n' :: 'u' :: 'l' :: 'l' :: rest => some (null, rest)
  | 't' :: 'r' :: 'u' :: 'e' :: rest => some (bool true, rest)
  | 'f' :: 'a' :: 'l' :: 's' :: 'e' :: rest => some (bool false, rest)
  | '"' :: rest => (readRaw rest).map fun (raw, rest) => (string raw, rest)
  | '-' :: rest => readNumber true rest
  | s => readNumber false s

mutual

/-- Reads a value at the front of a text. -/
def readValue : Nat → List Char → Option (Json × List Char)
  | 0, _ => none
  | fuel + 1, s =>
    match s with
    | '[' :: rest =>
      match skipBlanks rest with
      | ']' :: rest => some (array [], rest)
      | rest => (readItems fuel rest).map fun (items, rest) => (array items, rest)
    | '\x7b' :: rest =>
      match skipBlanks rest with
      | '\x7d' :: rest => some (object [], rest)
      | rest => (readMembers fuel rest).map fun (members, rest) => (object members, rest)
    | s => readScalar s

/-- Reads the items of an array from the first one to the closing bracket. -/
def readItems : Nat → List Char → Option (List Json × List Char)
  | 0, _ => none
  | fuel + 1, s => do
    let (item, rest) ← readValue fuel s
    match skipBlanks rest with
    | ']' :: rest => return ([item], rest)
    | ',' :: rest =>
      let (items, rest) ← readItems fuel (skipBlanks rest)
      return (item :: items, rest)
    | _ => none

/-- Reads the members of an object from the first one to the closing brace. -/
def readMembers : Nat → List Char → Option (List (List Char × Json) × List Char)
  | 0, _ => none
  | fuel + 1, s => do
    match s with
    | '"' :: rest =>
      let (key, rest) ← readRaw rest
      match skipBlanks rest with
      | ':' :: rest =>
        let (value, rest) ← readValue fuel (skipBlanks rest)
        match skipBlanks rest with
        | '\x7d' :: rest => return ([(key, value)], rest)
        | ',' :: rest =>
          let (members, rest) ← readMembers fuel (skipBlanks rest)
          return ((key, value) :: members, rest)
        | _ => none
      | _ => none
    | _ => none

end

/-- The document that a list of characters is. -/
def parseChars (s : List Char) : Option Json := do
  let (j, rest) ← readValue (2 * s.length + 2) (skipBlanks s)
  if skipBlanks rest = [] then some j else none

/-- The document that a text is. -/
def parse (s : String) : Option Json := parseChars s.toList

end ScriptBlocks.Json
