import ScriptBlocks.Dialect.Basic

/-!
# Variables

Assignment, change by an amount, and reading. The field of such a block holds a name or a key of the
host; the writer is given the name that it stands for.
-/

namespace ScriptBlocks.Dialect

/-- Words that look like names but never name a variable. -/
def keywords : List String :=
  ["pass", "break", "continue", "return", "else", "global", "None", "and", "or", "not", "def",
    "while"]

/-- The name of the variable that a block refers to. -/
def variableName (p : Parts) : String := p.variableName?.getD (p.fieldText "VAR")

/-- Adds an amount to a variable. -/
def mathChange : Form where
  name := "math_change"
  category := some "Variables"
  role := .statement
  template := .chained "change %1 by %2" [.text "VAR" "x", .value "DELTA" (some .number)]
    "Add a number to a variable"
  pattern := .all
    [.atStart, .group 1 namePattern, .blanks, "+=", .blanks, .group 2 (.atLeastOne inLine), .atEnd]
  variableField := some "VAR"
  read c := .ok (fields [("VAR", c.group 1), ("DELTA", trimmed (c.group 2))])
  construction := .withArguments
  write p := lines (variableName p ++ " += " ++ p.value "DELTA" .loosest "1" ++ "\n")

/-- Assigns a value to a variable. -/
def variablesSet : Form where
  name := "variables_set"
  category := some "Variables"
  role := .statement
  template := .chained "set %1 to %2" [.text "VAR" "x", .value "VALUE" none]
    "Assign a value to a variable"
  pattern := .all
    [.atStart, .group 1 namePattern, .blanks, "=", .blanks,
      .group 2 (.seq (.one (· ≠ '=')) (.many inLine)), .atEnd]
  variableField := some "VAR"
  read c := .ok (fields [("VAR", c.group 1), ("VALUE", trimmed (c.group 2))])
  construction := .withArguments
  write p := lines (variableName p ++ " = " ++ p.value "VALUE" .loosest "0" ++ "\n")

/-- Reads a variable. -/
def variablesGet : Form where
  name := "variables_get"
  category := some "Variables"
  role := .expression
  template := .expression "%1" none [.text "VAR" "x"] "Read a variable"
  pattern := .all [.atStart, namePattern, .atEnd]
  variableField := some "VAR"
  read c :=
    if keywords.contains c.text then .error (.keyword c.text)
    else .ok (fields [("VAR", c.text)])
  write p := expression (variableName p) .atomic

end ScriptBlocks.Dialect
