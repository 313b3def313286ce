/-!
# Quoted text

The inside of a JSON string literal. Writing escapes the quote, the backslash and the control
characters, the common ones by a letter and the others by their number; everything else stands for
itself. Reading also takes the solidus and any character by number, where a character beyond the
first plane is given by a pair of surrogates. A surrogate without its partner names no character.

## Main definitions

* `Json.escape`, `Json.quote` — writing
* `Json.unescape` — reading what stands between the quotes
-/

namespace ScriptBlocks.Json

/-- The hexadecimal digit of a number below 16, in lower case. -/
def hexDigit (n : Nat) : Char := Nat.digitChar n

/-- The value of a hexadecimal digit. -/
def hexValue? (c : Char) : Option Nat :=
  if c.isDigit then some (c.toNat - '0'.toNat)
  else if 'a' ≤ c ∧ c ≤ 'f' then some (c.toNat - 'a'.toNat + 10)
  else if 'A' ≤ c ∧ c ≤ 'F' then some (c.toNat - 'A'.toNat + 10)
  else none

/-- The written form of one character. -/
def escapeChar (c : Char) : List Char :=
  if c = '"' then ['\\', '"']
  else if c = '\\' then ['\\', '\\']
  else if c.toNat = 8 then ['\\', 'b']
  else if c = '\t' then ['\\', 't']
  else if c = '\n' then ['\\', 'n']
  else if c.toNat = 12 then ['\\', 'f']
  else if c = '\r' then ['\\', 'r']
  else if c.toNat < 32 then
    ['\\', 'u', '0', '0', hexDigit (c.toNat / 16), hexDigit (c.toNat % 16)]
  else [c]

/-- The written form of a text, without the quotes. -/
def escape (s : List Char) : List Char := s.flatMap escapeChar

/-- A text as a string literal. -/
def quote (s : String) : String := String.ofList ('"' :: escape s.toList ++ ['"'])

/-- The character that a letter after a backslash stands for. -/
def escapedChar? (c : Char) : Option Char :=
  match c with
  | '"' => some '"'
  | '\\' => some '\\'
  | '/' => some '/'
  | 'b' => some '\x08'
  | 'f' => some '\x0c'
  | 'n' => some '\n'
  | 'r' => some '\r'
  | 't' => some '\t'
  | _ => none

/-- The number with these four hexadecimal digits. -/
def hex4? (a b c d : Char) : Option Nat := do
  return ((← hexValue? a) * 16 + (← hexValue? b)) * 256 + (← hexValue? c) * 16 + (← hexValue? d)

def isHighSurrogate (n : Nat) : Bool := 0xD800 ≤ n && n < 0xDC00

def isLowSurrogate (n : Nat) : Bool := 0xDC00 ≤ n && n < 0xE000

/-- The text that the inside of a string literal stands for. -/
def unescape : List Char → Option (List Char)
  | [] => some []
  | '\\' :: 'u' :: a :: b :: c :: d :: '\\' :: 'u' :: e :: f :: g :: h :: rest => do
    let unit ← hex4? a b c d
    if isHighSurrogate unit then
      let low ← hex4? e f g h
      if isLowSurrogate low then
        let text ← unescape rest
        return .ofNat (0x10000 + (unit - 0xD800) * 0x400 + (low - 0xDC00)) :: text
      else none
    else if isLowSurrogate unit then none
    else
      let text ← unescape ('\\' :: 'u' :: e :: f :: g :: h :: rest)
      return .ofNat unit :: text
  | '\\' :: 'u' :: a :: b :: c :: d :: rest => do
    let unit ← hex4? a b c d
    if isHighSurrogate unit || isLowSurrogate unit then none
    else
      let text ← unescape rest
      return .ofNat unit :: text
  | '\\' :: c :: rest => do
    let plain ← escapedChar? c
    let text ← unescape rest
    return plain :: text
  | c :: rest => if c = '\\' then none else (unescape rest).map (c :: ·)

end ScriptBlocks.Json
