import ScriptBlocks.Document.Template
import ScriptBlocks.Workspace.Basic

/-!
# Documents of workspaces

The document of a workspace lists its blocks under their ids, the order of creation, the last id
given out and the variables of the host. Reading checks the form of a document only: its links may
lead nowhere.

## Main definitions

* `Workspace.toJson`, `Workspace.ofJson?` — writing and reading
* `Workspace.parse` — the workspace in the text of a document
-/

namespace ScriptBlocks

namespace Slot

def toJson : Slot → Json
  | value check child =>
    .ofMembers
      [("kind", .ofText "value"), ("check", .ofOption Capability.toJson check),
        ("child", .ofOption .ofNat child)]
  | statement head =>
    .ofMembers [("kind", .ofText "statement"), ("head", .ofOption .ofNat head)]

/-- The slot in a document that nests at most `depth` levels deep. -/
def ofJson? (depth : Nat) (j : Json) : Option Slot := do
  let (kind, rest) ← j.variant? "kind" depth
  match kind with
  | "value" =>
    let r ← rest.record? ["check", "child"]
    return value (← r.optional "check" Capability.ofJson?) (← r.optional "child" Json.natural?)
  | "statement" =>
    let r ← rest.record? ["head"]
    return statement (← r.optional "head" Json.natural?)
  | _ => none

end Slot

namespace Block

def toJson (float : Binary64 → Json) (b : Block) : Json :=
  .ofMembers
    [("id", .ofNat b.id), ("type_name", .ofText b.form),
      ("fields", b.fields.toJson (Value.toJson float)), ("slots", b.slots.toJson Slot.toJson),
      ("shape", b.shape.toJson), ("enabled", .bool b.enabled), ("shadow", .bool b.shadow),
      ("parent", .ofOption .ofNat b.parent), ("next", .ofOption .ofNat b.next)]

/-- The block in a document that nests at most `depth` levels deep. -/
def ofJson? (depth : Nat) (j : Json) : Option Block := do
  let r ← j.record?
    ["id", "type_name", "fields", "slots", "shape", "enabled", "shadow", "parent", "next"]
  return {
    id := ← r.required "id" Json.natural?
    form := ← r.required "type_name" Json.text?
    fields := ← r.required "fields" (Json.entries? Value.ofJson?)
    slots := ← r.required "slots" (Json.entries? (Slot.ofJson? (depth - 2)))
    shape := ← r.required "shape" (Shape.ofJson? (depth - 1))
    enabled := ← r.required "enabled" Json.truth?
    shadow := ← r.required "shadow" Json.truth?
    parent := ← r.optional "parent" Json.natural?
    next := ← r.optional "next" Json.natural? }

end Block

/-- The id that a key is: its digits, as they are written for a number. -/
def idOfKey? (key : List Char) : Option BlockId :=
  let n := Text.ofDigits key
  if Nat.toDigits 10 n = key ∧ n < wordLimit then some n else none

/-- The blocks in a document, under their ids. -/
def blocksOfJson? (depth : Nat) : Json → Option (OrderedMap BlockId Block)
  | .object members => do
    let entries ← members.mapM fun (key, j) => do
      return (← idOfKey? key, ← Block.ofJson? depth j)
    return .ofList entries
  | _ => none

namespace Workspace

/-- The document of a workspace, with floats written by `float`. -/
def toJson (float : Binary64 → Json) (w : Workspace) : Json :=
  .ofMembers
    [("nodes", .ofMembers (w.blocks.entries.map fun (id, b) => (toString id, b.toJson float))),
      ("order", .array (w.order.map .ofNat)), ("next_node_id", .ofNat w.lastId),
      ("variables", w.variableNames.toJson .ofText)]

/-- The workspace in a document. -/
def ofJson? (j : Json) : Option Workspace := do
  let r ← j.record? ["nodes", "order", "next_node_id", "variables"]
  return {
    blocks := ← r.required "nodes" (blocksOfJson? (maxDepth - 2))
    order := ← r.required "order" (Json.list? Json.natural?)
    lastId := ← r.required "next_node_id" Json.natural?
    variableNames := ← r.required "variables" (Json.entries? Json.text?) }

/-- The workspace in the text of a document. -/
def parse (text : String) : Except Error Workspace :=
  match (Json.parse text).bind ofJson? with
  | some w => .ok w
  | none => .error .malformedDocument

end Workspace

end ScriptBlocks
