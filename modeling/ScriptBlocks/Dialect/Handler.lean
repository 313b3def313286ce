import ScriptBlocks.Dialect.Sensor
import ScriptBlocks.Text.Lower

/-!
# Entry points

The handlers that a program starts from: once at the start, over and over, and when a button is
pressed. Each is written as a function, its body and its registration.
-/

namespace ScriptBlocks.Dialect

/-- A function header with the declared variables and the body beneath it. -/
def function (header : String) (p : Parts) : String :=
  "def " ++ header ++ "():\n" ++ p.globalsLine ++ p.body "DO"

/-- Runs its body over and over. -/
def forever : Form where
  name := "forever"
  category := some "Basic"
  role := .container
  template := .chained "forever %1 %2" [.dummy, .statement "DO"] "Runs code forever"
  pattern := .seq .atStart
    (.alt
      (.all ["def", .someBlanks, "on_forever", .blanks, "(", .blanks, ")", .blanks, ":"])
      (.all ["while", .someBlanks, "True", .blanks, ":"]))
  write p := lines (function "on_forever" p ++ "basic.forever(on_forever)\n")

/-- Runs its body once at the start. -/
def onStart : Form where
  name := "on_start"
  category := some "Basic"
  role := .container
  template := .event "on start %1 %2" [.dummy, .statement "DO"] "Runs once at the start"
  pattern := .all ["def", .someBlanks, "on_start(", .blanks, ")", .blanks, ":"]
  write p := lines (function "on_start" p ++ "\non_start()\n")

/-- Whether `x` is the small letter `c` in some case. Two letters beyond ASCII fold to small
ones. -/
def foldsTo (c x : Char) : Bool :=
  x = c || x = c.toUpper || (c = 's' && x = '\u017F') || (c = 'k' && x = '\u212A')

/-- A literal in small letters, matched in any case. -/
def anyCase (s : String) : Pattern := .all (s.toList.map fun c => .one (foldsTo c))

/-- Runs its body when a button is pressed. -/
def onButtonPressed : Form where
  name := "on_button_pressed"
  category := some "Input"
  role := .container
  template := .event "on button %1 pressed %2" [.dropdown "BUTTON" buttons, .statement "DO"]
    "Run when a button is pressed"
  pattern := .all
    [.atStart, anyCase "def", .someBlanks, anyCase "on_button_pressed_",
      .group 1 (.anyOf [anyCase "a", anyCase "b", anyCase "ab"]), .blanks, "(", .blanks, ")",
      .blanks, ":"]
  read := readButton
  write p :=
    let button := p.fieldOr "BUTTON" "A"
    let name := "on_button_pressed_" ++ Text.lower button
    lines (function name p ++ "\ninput.on_button_pressed(Button." ++ button ++ ", " ++ name ++ ")\n")

end ScriptBlocks.Dialect
