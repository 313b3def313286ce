import ScriptBlocks.Number.Shortest
import ScriptBlocks.OrderedMap

/-!
# Field values

The scalars that blocks carry. Structure is never a value: it is expressed by links between blocks.
-/

namespace ScriptBlocks

/-- A scalar in a field of a block. -/
inductive Value where
  | null
  | bool (b : Bool)
  | int (i : Int64)
  | float (x : Binary64)
  | string (s : String)
deriving DecidableEq

namespace Value

instance : Coe String Value := ⟨string⟩

/-- The value as it is spliced into source text: strings appear raw, `null` leaves no trace. -/
def toText : Value → String
  | null => ""
  | bool b => if b then "true" else "false"
  | int i => toString i.toInt
  | float x => x.toText
  | string s => s

/-- An integer where `x` is one of magnitude below `limit`, a float otherwise. -/
def ofNumber (limit : Nat) (x : Binary64) : Value :=
  match x.toInt? with
  | some i => if i.natAbs < limit then .int (.ofInt i) else .float x
  | none => .float x

end Value

/-- The field values of a block, by field name. -/
abbrev Fields := OrderedMap String Value

/-- The text of a field, empty when the field is not set. -/
def Fields.text (fields : Fields) (name : String) : String :=
  ((fields.find? name).map Value.toText).getD ""

/-- The text of a field, or `default` when that is empty. -/
def Fields.textOr (fields : Fields) (name default : String) : String :=
  let text := fields.text name
  if text = "" then default else text

end ScriptBlocks
