import ScriptBlocks.Dialect.Conditional
import ScriptBlocks.Dialect.Display
import ScriptBlocks.Dialect.Handler
import ScriptBlocks.Dialect.Icon
import ScriptBlocks.Dialect.Light
import ScriptBlocks.Dialect.Literal
import ScriptBlocks.Dialect.Music
import ScriptBlocks.Dialect.Operation
import ScriptBlocks.Dialect.Sensor
import ScriptBlocks.Dialect.Variable

/-!
# The built-in dialect

The forms that every workspace can use, in the order in which they are offered a line. Assignments
come first, so that a line that assigns a value is read as a whole and not by the value in it; the
forms that take any text of some kind come last.
-/

namespace ScriptBlocks.Dialect

/-- The built-in forms, those that are offered a line first at the front. -/
def forms : List Form :=
  [mathChange, variablesSet, showString, showNumber, basicShowLeds, pause, plotLed, unplotLed,
    showLeds, showIcon, plotLedBrightness, toggleLed, pointLed, controlsIf, onButtonPressed,
    buttonIsPressed, forever, onStart, accelerometer, pinRead, pinWrite, musicPlayTone,
    musicRingTone, musicRest, text, logicCompare, mathArithmetic, logicBoolean, mathNumber,
    variablesGet]

/-- The vocabulary of the built-in forms. -/
def vocabulary : Vocabulary := ⟨forms, by decide⟩

end ScriptBlocks.Dialect
