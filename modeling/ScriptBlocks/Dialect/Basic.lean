import ScriptBlocks.Form
import ScriptBlocks.Expression.Operator
import ScriptBlocks.Expression.Parentheses

/-!
# Common parts of the built-in forms

Reading numbers off the groups of a match, and the pieces that the patterns of several forms share.
-/

namespace ScriptBlocks.Dialect

/-- The fields with these names and values. -/
def fields (pairs : List (String × Value)) : Fields := .ofList pairs

/-- The integer in a group. -/
def integer (c : Capture) (i : Nat) : Except ReadFault Value :=
  match Text.readInteger (c.group i).toList with
  | .ok n => .ok (.int n)
  | .error fault => .error (.numeral (c.group i) fault)

/-- The number that a text is: an integer where its value is one below `10 ^ 15` in magnitude. -/
def number (text : String) : Except ReadFault Value :=
  match Text.readDecimal (Text.trim text.toList) with
  | some x => .ok (.ofNumber (powerOfTen 15) x)
  | none => .error (.numeral text .invalidDecimal)

/-- The text without white space at its ends. -/
def trimmed (text : String) : String := String.ofList (Text.trim text.toList)

/-- The upper-case form of an ASCII text. -/
def upper (text : String) : String := String.ofList (text.toList.map Char.toUpper)

section Patterns

open Pattern

/-- Digits with an optional fraction. -/
def decimalPattern : Pattern := .seq digits (.optional (all [".", digits]))

/-- A number with an optional minus sign. -/
def signedPattern : Pattern := .seq (.optional "-") decimalPattern

/-- A comma between arguments. -/
def comma : Pattern := .seq "," blanks

/-- A name that starts with an ASCII letter or an underscore. -/
def namePattern : Pattern := .seq (.one fun c => c.isAlpha || c = '_') (.many Text.isWord)

/-- A string literal; its content is group 1 between double quotes and group 2 between single
ones. -/
def literalPattern : Pattern :=
  .alt (all ["\"", .group 1 (.many (· ≠ '"')), "\""])
    (all ["'", .group 2 (.many (· ≠ '\'')), "'"])

/-- Any character of a line. -/
def inLine (c : Char) : Bool := c ≠ '\n'

end Patterns

/-- The content of a string literal that `literalPattern` matched. -/
def literalText (c : Capture) : String := (c.group? 1).getD (c.group 2)

/-- A fragment of complete lines. -/
def lines (code : String) : Except Error Fragment := .ok (.statement code)

/-- A fragment that is an expression. -/
def expression (code : String) (p : Precedence) : Except Error Fragment := .ok (.expression code p)

end ScriptBlocks.Dialect
