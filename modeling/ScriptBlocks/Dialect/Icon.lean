import ScriptBlocks.Dialect.Basic

/-!
# Icons

The named pictures of the display, five rows of five lights each, where `1` is lit.
-/

namespace ScriptBlocks.Dialect

def heartRows : List String := ["01010", "11111", "11111", "01110", "00100"]

/-- The icons with their rows from top to bottom. -/
def icons : List (String × List String) :=
  [("HEART", heartRows),
    ("SMALL_HEART", ["00000", "01010", "01110", "00100", "00000"]),
    ("HAPPY", ["00000", "01010", "00000", "10001", "01110"]),
    ("SAD", ["00000", "01010", "01110", "10001", "00000"]),
    ("YES", ["00001", "00010", "00100", "01000", "10000"]),
    ("NO", ["10001", "01010", "00100", "01010", "10001"])]

def isIcon (name : String) : Bool := icons.any fun i => i.1 = name

/-- The rows of an icon; a name that is none stands for the heart. -/
def iconRows (name : String) : List String :=
  ((icons.find? fun i => i.1 = name).map Prod.snd).getD heartRows

/-- A call with the coordinates of a light. -/
def atLight (function : String) (x y : Nat) : String :=
  function ++ "(" ++ toString x ++ ", " ++ toString y ++ ")\n"

/-- The lights of a row that are lit. -/
def litColumns (row : String) : List Nat :=
  (List.range 5).filter fun x => row.toList[x]? = some '1'

/-- Turns all lights off and then those of the icon on, row by row. -/
def drawIcon (name : String) : String :=
  let clear := (List.range 5).flatMap fun y => (List.range 5).map fun x => atLight "led.unplot" x y
  let draw := (iconRows name).zipIdx.flatMap fun (row, y) =>
    (litColumns row).map fun x => atLight "led.plot" x y
  String.join (clear ++ draw)

/-- Shows an icon. -/
def showIcon : Form where
  name := "show_icon"
  category := some "Basic"
  role := .statement
  gated := true
  template := .chained "show icon %1" [.icon "ICON" "HEART"]
    "Show a predefined icon on the LED matrix"
  pattern := .all
    ["display.show(Image.", .group 1 (.atLeastOne fun c => c.isUpper || c = '_'), ")"]
  read c :=
    let name := c.group 1
    .ok (fields [("ICON", if isIcon name then name else "HEART")])
  write p := lines (drawIcon (p.fieldText "ICON"))

end ScriptBlocks.Dialect
