import ScriptBlocks.Pattern

/-!
# Reading patterns

A small written form for the patterns of forms that a host adds: literal characters, the anchors
`^` and `$`, a backslash before a character that stands for itself, the classes `\d`, `\w` and `\s`,
a period for any character of a line, and `+`, `*` or `?` after a single character. Everything else
that has a meaning elsewhere is refused.
-/

namespace ScriptBlocks.Pattern

/-- Whether `c` has to be written with a backslash to stand for itself. -/
def isReserved (c : Char) : Bool := c ∈ "\\.+*?()|[]\x7b\x7d^$".toList

/-- The smallest part of a written pattern. -/
inductive Atom where
  | character (test : Char → Bool)
  | anchor (p : Pattern)

/-- Reads one atom and gives what follows it. -/
def readAtom : List Char → Option (Atom × List Char)
  | '^' :: rest => some (.anchor atStart, rest)
  | '$' :: rest => some (.anchor atEnd, rest)
  | '.' :: rest => some (.character (· ≠ '\n'), rest)
  | '\\' :: 'd' :: rest => some (.character Text.isDigit, rest)
  | '\\' :: 'w' :: rest => some (.character Text.isWord, rest)
  | '\\' :: 's' :: rest => some (.character Text.isWhite, rest)
  | '\\' :: c :: rest =>
    if c.toNat < 128 ∧ ¬c.isAlphanum then some (.character (· = c), rest) else none
  | c :: rest => if isReserved c then none else some (.character (· = c), rest)
  | [] => none

/-- The repetition sign at the front of a text, applied to a single character. -/
def readRepetition (test : Char → Bool) : List Char → Pattern × List Char
  | '+' :: rest => (atLeastOne test, rest)
  | '*' :: rest => (many test, rest)
  | '?' :: rest => (optional (one test), rest)
  | rest => (one test, rest)

/-- Reads the atoms of a pattern, at most `fuel` of them. -/
def readAtoms : Nat → List Char → Option (List Pattern)
  | _, [] => some []
  | 0, _ => none
  | fuel + 1, s => do
    match ← readAtom s with
    | (.anchor p, rest) => return p :: (← readAtoms fuel rest)
    | (.character test, rest) =>
      let (p, rest) := readRepetition test rest
      return p :: (← readAtoms fuel rest)

/-- The pattern written as `s`, if it is well formed. -/
def read? (s : String) : Option Pattern := (readAtoms s.length s.toList).map all

end ScriptBlocks.Pattern
