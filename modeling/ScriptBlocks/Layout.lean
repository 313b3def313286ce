import ScriptBlocks.Text.Blank
import ScriptBlocks.Text.Line

/-!
# Layout of bodies

Indentation is put before the non-blank lines of a body; blank lines stay as they are. A body that
is already indented is left alone, and one without any text is replaced by a placeholder.

## Main definitions

* `Layout.indentLines` — indentation of every non-blank line
* `Layout.block` — the body of a header, never empty and always ended by a line feed
-/

namespace ScriptBlocks.Layout

open Text

/-- Puts the indent before one piece, unless that is blank. -/
def indentPiece (indent : List Char) (piece : List Char) : List Char :=
  if isBlank piece then piece else indent ++ piece

/-- Puts the indent before every non-blank line. -/
def indentChars (indent : List Char) (code : List Char) : List Char :=
  ((pieces code).map (indentPiece indent)).flatten

/-- Whether the first line that is not blank starts with white space. -/
def startsIndented (code : List Char) : Bool :=
  match (pieces code).find? fun p => !isBlank p with
  | some (c :: _) => isWhite c
  | _ => false

/-- Ends a text by a line feed, if it is not ended by one already. -/
def endLine (code : List Char) : List Char :=
  if code.getLast? = some '\n' then code else code ++ ['\n']

/-- The body of a header as characters: the placeholder for a blank text, otherwise the text
without carriage returns, indented unless its first non-blank line is. -/
def blockChars (indent placeholder : List Char) (code : List Char) : List Char :=
  if isBlank code then indent ++ placeholder ++ ['\n']
  else
    let code := code.filter (· ≠ '\r')
    endLine (if startsIndented code then code else indentChars indent code)

/-- Puts the indent before every non-blank line of a text. -/
def indentLines (code indent : String) : String :=
  String.ofList (indentChars indent.toList code.toList)

/-- The body of a header. -/
def block (code indent placeholder : String) : String :=
  String.ofList (blockChars indent.toList placeholder.toList code.toList)

end ScriptBlocks.Layout
