import ScriptBlocks.Text.Blank

/-!
# Parentheses around an expression

An argument may be wrapped in parentheses that say nothing. They are dropped as long as the first
and the last character of the text are a pair that belongs together.
-/

namespace ScriptBlocks.Expression

/-- Whether the parentheses of a text close one another, with `depth` of them open before it and
none left open after it. Any number of them is counted; a counter of 32 bits would do the same for
fewer than 2^31. -/
def closes : Nat → List Char → Bool
  | depth, [] => depth = 0
  | depth, '(' :: rest => closes (depth + 1) rest
  | 0, ')' :: _ => false
  | depth + 1, ')' :: rest => closes depth rest
  | depth, _ :: rest => closes depth rest

/-- The text inside a pair of parentheses that wraps all of it. -/
def unwrap? : List Char → Option (List Char)
  | '(' :: rest =>
    if rest.getLast? = some ')' ∧ closes 0 rest.dropLast then some rest.dropLast else none
  | _ => none

/-- Drops wrapping parentheses and the white space inside them, at most `fuel` times. -/
def stripWithin : Nat → List Char → List Char
  | 0, s => s
  | fuel + 1, s =>
    match unwrap? s with
    | some inner => stripWithin fuel (Text.trim inner)
    | none => s

/-- Drops the parentheses that wrap the whole of a text. -/
def stripChars (s : List Char) : List Char := stripWithin s.length s

/-- The text of an argument without white space at its ends and without wrapping parentheses. -/
def bare (text : String) : String := String.ofList (stripChars (Text.trim text.toList))

end ScriptBlocks.Expression
