import ScriptBlocks.Json.Record
import ScriptBlocks.Json.Writer
import ScriptBlocks.Template

/-!
# Documents of values

A value is written as a JSON scalar. Reading gives an integer for a number that is written as one
and fits in 64 bits, and a float for every other number.
-/

namespace ScriptBlocks

namespace Value

/-- The document of a value, with floats written by `float`. -/
def toJson (float : Binary64 → Json) : Value → Json
  | null => .null
  | bool b => .bool b
  | int i => .ofInt i.toInt
  | .float x => float x
  | string s => .ofText s

/-- The value of a number. -/
def ofNumber? (n : Json.Number) : Option Value :=
  match n.integer? with
  | some i =>
    if -(integerLimit : Int) ≤ i ∧ i < integerLimit then some (.int (.ofInt i)) else n.float?.map .float
  | none => n.float?.map .float

/-- The value that a document holds. -/
def ofJson? : Json → Option Value
  | .null => some null
  | .bool b => some (bool b)
  | .number n => ofNumber? n
  | .string raw => (Json.rawText? raw).map string
  | _ => none

end Value

/-- The document of an ordered map. -/
def OrderedMap.toJson {α : Type} (write : α → Json) (m : OrderedMap String α) : Json :=
  .ofMembers (m.entries.map fun (k, a) => (k, write a))

end ScriptBlocks
