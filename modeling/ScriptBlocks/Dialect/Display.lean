import ScriptBlocks.Dialect.Basic
import ScriptBlocks.Text.Line

/-!
# The display

Showing text, numbers and pictures. A literal that is shown becomes a shadow in the slot of the
block, so that any expression can take its place. A picture has five rows of five lights: as a
matrix of `#` and `.` it may be written with other characters in between, and rows that are short or
missing are dark.

## Main definitions

* `matrixRows` — the rows of a picture
* `showString`, `showNumber`, `basicShowLeds`, `showLeds`, `pause` — the forms
-/

namespace ScriptBlocks.Dialect

/-- Shows a text. -/
def showString : Form where
  name := "show_string"
  category := some "Basic"
  role := .statement
  gated := true
  template := .chained "show string %1" [.value "TEXT" (some .string)]
    "Show a string on the display"
  pattern := .all ["basic.show_string(", literalPattern, ")"]
  read c := .ok (fields [("TEXT", literalText c)])
  construction := .literal "TEXT" "text" "TEXT" none
  write p := lines ("basic.show_string(" ++ p.value "TEXT" .loosest "\"\"" ++ ")\n")

/-- Shows a number. -/
def showNumber : Form where
  name := "show_number"
  category := some "Basic"
  role := .statement
  gated := true
  template := .chained "show number %1" [.value "NUM" (some .number)]
    "Show a number on the display"
  pattern := .all ["basic.show_number(", .group 1 signedPattern, ")"]
  read c := do return fields [("NUM", ← number (c.group 1))]
  construction := .literal "NUM" "math_number" "NUM" (some (.int 0))
  write p := lines ("basic.show_number(" ++ p.value "NUM" .loosest "0" ++ ")\n")

/-- The lights of one row: the first five marks in a line, and dark ones for those missing. -/
def matrixRow (line : List Char) : List Char :=
  ((line.filter fun c => c = '#' || c = '.').take 5).rightpad 5 '.'

/-- The five rows of a picture, from the first five lines of a text without carriage returns. -/
def matrixRows (text : List Char) : List (List Char) :=
  let lines := Text.documentLines (text.filter (· ≠ '\r'))
  ((lines.take 5).rightpad 5 []).map matrixRow

/-- The content of a picture's quotes without a line feed at its start. -/
def afterLineFeed : List Char → List Char
  | '\n' :: rest => rest
  | s => s

/-- Rows put together with a text in between. -/
def joinRows (separator : String) (rows : List (List Char)) : String :=
  separator.intercalate (rows.map String.ofList)

/-- Shows a picture given as a matrix of marks. -/
def basicShowLeds : Form where
  name := "basic_show_leds"
  category := some "Basic"
  role := .statement
  gated := true
  template := .chained "show leds %1" [.ledMatrix "MATRIX" ".....\n.....\n.....\n.....\n....."]
    "Draw a 5×5 image and show it on the LED screen"
  pattern := .all
    ["basic.show_leds(", .blanks, .alt "\"\"\"" "'''", .group 1 (.few fun _ => true),
      .alt "\"\"\"" "'''", .blanks, ")"]
  read c := .ok (fields
    [("MATRIX", joinRows "\n" (matrixRows (afterLineFeed (c.group 1).toList)))])
  write p :=
    let rows := (matrixRows (p.fieldText "MATRIX").toList).map fun row => row.intersperse ' '
    lines ("basic.show_leds(\"\"\"\n" ++ joinRows "\n" rows ++ "\n\"\"\")\n")

/-- A picture without lights. -/
def darkPattern : String := "00000\n00000\n00000\n00000\n00000"

/-- Five times five digits, each row followed by a line feed, a written line feed, a colon or
nothing. -/
def imagePattern : Pattern :=
  open Pattern in
  .times 5 (.seq (.times 5 (.one fun c => c = '0' || c = '1'))
    (.optional (.anyOf ["\n", "\\n", ":"])))

/-- Shows a picture given by the digits of its lights. -/
def showLeds : Form where
  name := "show_leds"
  category := some "Led"
  role := .statement
  gated := true
  template := .chained "show leds %1" [.multilineText "PATTERN" darkPattern]
    "Display pattern on LEDs"
  pattern :=
    let quote := Pattern.one fun c => c = '"' || c = '\''
    .all ["display.show(Image(", quote, .group 1 imagePattern, quote, "))"]
  read c :=
    let digits := (c.group 1).toList.filter fun c => c = '0' || c = '1'
    let rows := (List.range 5).map fun i => (digits.drop (5 * i)).take 5
    .ok (fields [("PATTERN", joinRows "\n" rows)])
  write p :=
    let image := (p.fieldOr "PATTERN" darkPattern).toList.filter (· ≠ '\r')
    let written := image.flatMap fun c => if c = '\n' then ['\\', 'n'] else [c]
    lines ("display.show(Image(\"" ++ String.ofList written ++ "\"))\n")

/-- Waits. -/
def pause : Form where
  name := "pause"
  category := some "Basic"
  role := .statement
  gated := true
  template := .chained "pause %1 ms" [.plainNumber "TIME" 1000] "Pause execution"
  pattern := .all ["basic.pause(", .group 1 .digits, ")"]
  read c := do return fields [("TIME", ← integer c 1)]
  write p := lines ("basic.pause(" ++ p.fieldOr "TIME" "1000" ++ ")\n")

end ScriptBlocks.Dialect
