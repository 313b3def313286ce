import ScriptBlocks.Block
import ScriptBlocks.Number.Literal

/-!
# Errors

Every operation that can be refused says why by a cause; the wording of a cause is one function.

## Main definitions

* `ReadFault` — why a matched line could not be read
* `Error`, `Error.message` — the causes and their wording
-/

namespace ScriptBlocks

/-- Why text that a form's pattern matches does not make a block of it. -/
inductive ReadFault where
  | numeral (text : String) (fault : NumeralFault)
  | chainedComparison (text : String)
  | noComparison (text : String)
  | noOperator (text : String)
  | keyword (word : String)
  /-- A reason that a form of the host gives, under the name of its source. -/
  | refused (source reason : String)
deriving DecidableEq

def ReadFault.message : ReadFault → String
  | numeral text fault => "'" ++ text ++ "': " ++ fault.message
  | chainedComparison text => "chained comparison '" ++ text ++ "'"
  | noComparison text => "no comparison in '" ++ text ++ "'"
  | noOperator text => "no operator in '" ++ text ++ "'"
  | keyword word => "'" ++ word ++ "' is a keyword"
  | refused _ reason => reason

/-- The name under which a fault is reported that arose in a form. -/
def ReadFault.source (form : String) : ReadFault → String
  | refused source _ => source
  | _ => form

/-- Why an operation is refused. -/
inductive Error where
  | duplicateForm (name : String)
  | unknownForm (name : String)
  | slotOccupied (block : BlockId) (slot : String)
  | unknownSlot (block : BlockId) (slot : String)
  /-- A statement was to go into a value slot. -/
  | notStatementSlot (slot : String)
  /-- An expression was to go into a statement slot. -/
  | notValueSlot (slot : String)
  /-- A block of the named form has no previous connector. -/
  | noPrevious (form : String)
  /-- A block of the named form has no next connector. -/
  | noNext (form : String)
  /-- A block of the named form is not an expression. -/
  | notExpression (form : String)
  /-- A value slot holds a block whose text is a statement. -/
  | statementText (slot form : String)
  | capabilityMismatch (slot : String) (check output : Option Capability)
  | alreadyAttached (block : BlockId)
  | wouldCycle (parent child : BlockId)
  | unknownBlock (block : BlockId)
  | invalidPattern (form : String)
  | unreadable (form : String) (fault : ReadFault)
  | unwritable (reason : String)
  | malformedDocument
deriving DecidableEq

namespace Error

private def mismatch (expected got : String) : String :=
  "Type mismatch: expected " ++ expected ++ ", got " ++ got

/-- The wording of an error. -/
def message : Error → String
  | duplicateForm name => "Form already registered: " ++ name
  | unknownForm name => "Unknown form type: " ++ name
  | slotOccupied block slot => "Slot '" ++ slot ++ "' on node " ++ toString block ++ " is occupied"
  | unknownSlot block slot => "Node " ++ toString block ++ " has no slot '" ++ slot ++ "'"
  | notStatementSlot slot => mismatch "statement slot" ("value slot '" ++ slot ++ "'")
  | notValueSlot slot => mismatch "value slot" ("statement slot '" ++ slot ++ "'")
  | noPrevious form => mismatch "statement with a previous connector" form
  | noNext form => mismatch "statement with a next connector" form
  | notExpression form => mismatch "expression" form
  | statementText slot form => mismatch ("expression in slot '" ++ slot ++ "'") form
  | capabilityMismatch slot check output =>
    "Slot '" ++ slot ++ "' accepts " ++ Capability.nameOrEmpty check ++ ", got " ++
      Capability.nameOrEmpty output
  | alreadyAttached block => "Node " ++ toString block ++ " is already attached"
  | wouldCycle parent child =>
    "Connecting " ++ toString child ++ " under " ++ toString parent ++ " would create a cycle"
  | unknownBlock block => "Not found: Node " ++ toString block
  | invalidPattern form => "Invalid pattern for form " ++ form
  | unreadable form fault => "Decode error in " ++ fault.source form ++ ": " ++ fault.message
  | unwritable reason => "Encode error: " ++ reason
  | malformedDocument => "Config error"

end Error

end ScriptBlocks
