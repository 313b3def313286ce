import ScriptBlocks.Document.Scalar

/-!
# Documents of templates

Shapes and arguments are variants: their tag says which members they have.

## Main definitions

* `Capability.ofJson?`, `Shape.ofJson?`, `Arg.ofJson?`, `Template.ofJson?` — reading
* `Capability.toJson`, `Shape.toJson` — writing
-/

namespace ScriptBlocks

namespace Capability

def ofName? (name : String) : Option Capability :=
  match name with
  | "Number" => some number
  | "String" => some string
  | "Boolean" => some boolean
  | _ => none

def toJson (c : Capability) : Json := .ofText c.name

/-- A capability is its name, or an object with the name as the key of nothing. -/
def ofJson? : Json → Option Capability
  | .string raw => (Json.rawText? raw).bind ofName?
  | .object [(key, .null)] | .object [(key, .object [])] => (Json.rawText? key).bind ofName?
  | _ => none

end Capability

namespace Shape

def toJson : Shape → Json
  | statement previous next =>
    .ofMembers
      [("kind", .ofText "statement"), ("previous", .bool previous), ("next", .bool next)]
  | expression output =>
    .ofMembers [("kind", .ofText "expression"), ("output", .ofOption Capability.toJson output)]

/-- The shape in a document that nests at most `depth` levels deep. -/
def ofJson? (depth : Nat) (j : Json) : Option Shape := do
  let (kind, rest) ← j.variant? "kind" depth
  match kind with
  | "statement" =>
    let r ← rest.record? ["previous", "next"]
    return statement (← r.required "previous" Json.truth?) (← r.required "next" Json.truth?)
  | "expression" =>
    let r ← rest.record? ["output"]
    return expression (← r.optional "output" Capability.ofJson?)
  | _ => none

end Shape

namespace Arg

/-- An option of a dropdown: exactly two texts. -/
def choice? (j : Json) : Option (String × String) := do
  match ← j.items? with
  | [label, choice] => return (← label.text?, ← choice.text?)
  | _ => none

/-- The members of an argument that has a name and a default text. -/
def named? (make : String → String → Arg) (rest : Json) : Option Arg := do
  let r ← rest.record? ["name", "default"]
  return make (← r.required "name" Json.text?) (← r.required "default" Json.text?)

def number? (rest : Json) : Option Arg := do
  let r ← rest.record? ["name", "default", "min", "max"]
  return number (← r.required "name" Json.text?) (← r.required "default" Json.float?)
    (← r.optional "min" Json.float?) (← r.optional "max" Json.float?)

def slider? (rest : Json) : Option Arg := do
  let r ← rest.record? ["name", "default", "min", "max"]
  return slider (← r.required "name" Json.text?) (← r.required "default" Json.float?)
    (← r.required "min" Json.float?) (← r.required "max" Json.float?)

def dropdown? (rest : Json) : Option Arg := do
  let r ← rest.record? ["name", "options"]
  return dropdown (← r.required "name" Json.text?) (← r.required "options" (Json.list? choice?))

def value? (rest : Json) : Option Arg := do
  let r ← rest.record? ["name", "check"]
  return value (← r.required "name" Json.text?) (← r.optional "check" Capability.ofJson?)

def statement? (rest : Json) : Option Arg := do
  let r ← rest.record? ["name"]
  return statement (← r.required "name" Json.text?)

/-- The argument in a document that nests at most `depth` levels deep. -/
def ofJson? (depth : Nat) (j : Json) : Option Arg := do
  let (type, rest) ← j.variant? "type" depth
  match type with
  | "number" => number? rest
  | "slider" => slider? rest
  | "text" => named? text rest
  | "multiline_text" => named? multilineText rest
  | "dropdown" => dropdown? rest
  | "led_matrix" => named? ledMatrix rest
  | "icon" => named? icon rest
  | "value" => value? rest
  | "statement" => statement? rest
  | "dummy" => (rest.record? []).map fun _ => dummy
  | _ => none

end Arg

/-- How deep a document may nest. -/
def maxDepth : Nat := 127

/-- The template in a document. -/
def Template.ofJson? (j : Json) : Option Template := do
  let r ← j.record? ["message", "args", "shape", "tooltip"]
  return {
    message := ← r.required "message" Json.text?
    args := ← r.required "args" (Json.list? (Arg.ofJson? (maxDepth - 2)))
    shape := ← r.required "shape" (Shape.ofJson? (maxDepth - 1))
    tooltip := ← r.required "tooltip" Json.text? }

end ScriptBlocks
