import ScriptBlocks.Dialect.Basic

/-!
# Sensors and pins

Readings of buttons, the accelerometer and the analog pins, and writing to a pin.
-/

namespace ScriptBlocks.Dialect

/-- The buttons as options. -/
def buttons : List (String × String) := [("A", "A"), ("B", "B"), ("A+B", "AB")]

/-- The button named by group 1, in capitals. -/
def readButton (c : Capture) : Except ReadFault Fields :=
  .ok (fields [("BUTTON", upper (c.group 1))])

/-- Whether a button is pressed. -/
def buttonIsPressed : Form where
  name := "button_is_pressed"
  category := some "Input"
  role := .expression
  template := .expression "button %1 is pressed" (some .boolean) [.dropdown "BUTTON" buttons]
    "Check whether a button is currently pressed"
  pattern := .all
    ["input.button_is_pressed(", .blanks, "Button.", .group 1 (.anyOf ["A", "B", "AB"]), .blanks,
      ")"]
  read := readButton
  write p := expression ("input.button_is_pressed(Button." ++ p.fieldOr "BUTTON" "A" ++ ")") .call

/-- The acceleration along an axis. -/
def accelerometer : Form where
  name := "microbit_accelerometer"
  role := .expression
  template := .expression "accelerometer %1" (some .number)
    [.dropdown "AXIS" [("x", "x"), ("y", "y"), ("z", "z")]] "Get accelerometer reading"
  pattern := .all
    ["accelerometer.get_", .group 1 (.one fun c => c = 'x' || c = 'y' || c = 'z'), "()"]
  read c := .ok (fields [("AXIS", c.group 1)])
  write p := expression ("accelerometer.get_" ++ p.fieldOr "AXIS" "x" ++ "()") .call

/-- The pins as options. -/
def pins : List (String × String) := [("0", "0"), ("1", "1"), ("2", "2")]

/-- The value at a pin. -/
def pinRead : Form where
  name := "microbit_pin_read"
  role := .expression
  template := .expression "read analog pin %1" (some .number) [.dropdown "PIN" pins]
    "Read analog value from pin"
  pattern := .all ["pin", .group 1 .digits, ".read_analog()"]
  read c := .ok (fields [("PIN", c.group 1)])
  write p := expression ("pin" ++ p.fieldOr "PIN" "0" ++ ".read_analog()") .call

/-- Sets the value at a pin. -/
def pinWrite : Form where
  name := "microbit_pin_write"
  role := .statement
  template := .chained "write analog pin %1 value %2"
    [.dropdown "PIN" pins, .boundedNumber "VALUE" 512 0 1023] "Write analog value to pin"
  pattern := .all ["pin", .group 1 .digits, ".write_analog(", .group 2 .digits, ")"]
  read c := do return fields [("PIN", c.group 1), ("VALUE", ← integer c 2)]
  write p := lines
    ("pin" ++ p.fieldOr "PIN" "0" ++ ".write_analog(" ++ p.fieldOr "VALUE" "512" ++ ")\n")

end ScriptBlocks.Dialect
