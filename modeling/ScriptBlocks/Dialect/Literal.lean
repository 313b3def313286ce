import ScriptBlocks.Dialect.Basic
import ScriptBlocks.Json.Quoted

/-!
# Literals

Text, numbers and truth values. Text is written as a JSON string, which the dialect reads as a
string of its own.
-/

namespace ScriptBlocks.Dialect

/-- A text in quotes of either kind. -/
def text : Form where
  name := "text"
  category := some "Math"
  role := .expression
  template := .expression "%1" (some .string) [.text "TEXT" ""] "A text value"
  pattern := literalPattern
  read c := .ok (fields [("TEXT", literalText c)])
  write p := expression (Json.quote (p.fieldText "TEXT")) .atomic

/-- A number. A negative one binds like the sign in front of it. -/
def mathNumber : Form where
  name := "math_number"
  category := some "Math"
  role := .expression
  template := .expression "%1" (some .number) [.plainNumber "NUM" 0] "A number"
  pattern := .all [.atStart, signedPattern, .atEnd]
  read c := do return fields [("NUM", ← number c.text)]
  write p :=
    let code := p.fieldOr "NUM" "0"
    expression code (if code.toList.head? = some '-' then .unary else .atomic)

/-- A truth value. -/
def logicBoolean : Form where
  name := "logic_boolean"
  category := some "Logic"
  role := .expression
  template := .expression "%1" (some .boolean)
    [.dropdown "BOOL" [("true", "TRUE"), ("false", "FALSE")]] "Returns either true or false"
  pattern := .all [.atStart, .group 1 (.alt "True" "False"), .atEnd]
  read c := .ok (fields [("BOOL", upper (c.group 1))])
  write p := expression (if p.fieldText "BOOL" = "FALSE" then "False" else "True") .atomic

end ScriptBlocks.Dialect
