import ScriptBlocks.Dialect.Basic

/-!
# Single lights

Turning the light at two coordinates on or off, setting its brightness, and asking for its state.
-/

namespace ScriptBlocks.Dialect

/-- The coordinate arguments. -/
def coordinates : List Arg := [.boundedNumber "X" 0 0 4, .boundedNumber "Y" 0 0 4]

/-- A call with two coordinates. -/
def coordinatePattern (function : String) : Pattern :=
  .all [function, "(", .group 1 .digits, comma, .group 2 .digits, ")"]

def readCoordinates (c : Capture) : Except ReadFault Fields := do
  return fields [("X", ← integer c 1), ("Y", ← integer c 2)]

/-- The call of a function with the coordinates of a block. -/
def coordinateCall (function : String) (p : Parts) : String :=
  function ++ "(" ++ p.fieldOr "X" "0" ++ ", " ++ p.fieldOr "Y" "0" ++ ")"

/-- A statement that does something to the light at two coordinates. -/
def lightStatement (name function message tooltip : String) : Form where
  name := name
  category := some "Led"
  role := .statement
  gated := true
  template := .chained message coordinates tooltip
  pattern := coordinatePattern function
  read := readCoordinates
  write p := lines (coordinateCall function p ++ "\n")

def plotLed : Form :=
  lightStatement "plot_led" "led.plot" "plot x: %1 y: %2" "Turn on LED at (x, y)"

def unplotLed : Form :=
  lightStatement "unplot_led" "led.unplot" "unplot x: %1 y: %2" "Turn off LED at (x, y)"

def toggleLed : Form :=
  lightStatement "toggle_led" "led.toggle" "toggle x: %1 y: %2" "Toggle LED at (x, y)"

/-- Whether a light is on. -/
def pointLed : Form where
  name := "point_led"
  category := some "Led"
  role := .expression
  template := .expression "point x: %1 y: %2" (some .boolean) coordinates
    "Check if LED at (x, y) is on"
  pattern := coordinatePattern "led.point"
  read := readCoordinates
  write p := expression (coordinateCall "led.point" p) .call

/-- Sets the brightness of a light. -/
def plotLedBrightness : Form where
  name := "plot_led_brightness"
  category := some "Led"
  role := .statement
  gated := true
  template := .chained "plot x %1 y %2 brightness %3"
    (coordinates ++ [.slider "BRIGHTNESS" 255 0 255]) "Plot an LED at (x,y) with brightness 0-255"
  pattern := .all
    ["led.plot_brightness(", .group 1 .digits, comma, .group 2 .digits, comma, .group 3 .digits,
      ")"]
  read c := do
    return fields [("X", ← integer c 1), ("Y", ← integer c 2), ("BRIGHTNESS", ← integer c 3)]
  write p := lines ("led.plot_brightness(" ++ p.fieldOr "X" "0" ++ ", " ++ p.fieldOr "Y" "0" ++
    ", " ++ p.fieldOr "BRIGHTNESS" "255" ++ ")\n")

end ScriptBlocks.Dialect
