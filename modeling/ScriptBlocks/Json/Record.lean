import ScriptBlocks.Json.Reader
import ScriptBlocks.Json.Numeric
import ScriptBlocks.OrderedMap

/-!
# Reading records from documents

A record is written as an object with a member for each of its fields, or as an array of its fields
in order. In an object, members of other names are passed over, and no field may occur twice; a
field that may be absent may be left out. In an array, fields can be left out at the end only, and
only those that have a default.

A variant is a record with one further field, its tag, which says what the other fields are. Because
the tag may come last, a variant is held in memory before it is read: that is why everything in it,
even what is passed over, has to be representable and not nested too deeply.

## Main definitions

* `Json.text?`, `Json.truth?`, `Json.float?`, `Json.natural?` — scalars
* `Json.Record`, `Json.record?` — records, with `required`, `optional` and `defaulted` fields
* `Json.variant?` — the tag of a variant and the document of its other fields
* `Json.entries?` — the members of a map
-/

namespace ScriptBlocks.Json

/-- The text of a string. -/
def rawText? (raw : List Char) : Option String := (unescape raw).map String.ofList

def text? : Json → Option String
  | string raw => rawText? raw
  | _ => none

def truth? : Json → Option Bool
  | bool b => some b
  | _ => none

def float? : Json → Option Binary64
  | number n => n.float?
  | _ => none

/-- A natural number of 64 bits. -/
def natural? : Json → Option Nat
  | number n => n.natural?
  | _ => none

def items? : Json → Option (List Json)
  | array items => some items
  | _ => none

/-- A list whose items are read one by one. -/
def list? {α : Type} (read : Json → Option α) (j : Json) : Option (List α) := do
  (← j.items?).mapM read

/-- The members of an object with the texts of their keys. -/
def members? : Json → Option (List (String × Json))
  | object members => members.mapM fun (k, j) => (rawText? k).map (·, j)
  | _ => none

/-- A map: of two members with one key, the later gives the value and the earlier the place. -/
def entries? {α : Type} (read : Json → Option α) (j : Json) : Option (OrderedMap String α) := do
  let entries ← (← j.members?).mapM fun (k, j) => (read j).map (k, ·)
  return .ofList entries

/-- `null` or a value. -/
def nullable? {α : Type} (read : Json → Option α) : Json → Option (Option α)
  | null => some none
  | j => (read j).map some

/-- The fields of a record that are present. -/
structure Record where
  members : List (String × Json)
  /-- Whether the record was written as an array. -/
  positional : Bool

/-- The record with fields of the given names. -/
def record? (names : List String) : Json → Option Record
  | array items => if names.length < items.length then none else some ⟨names.zip items, true⟩
  | j => do
    let members ← j.members?
    if names.all fun name => (members.filter fun m => m.1 = name).length ≤ 1 then
      some ⟨members.filter fun m => names.contains m.1, false⟩
    else none

namespace Record

variable {α : Type}

def find? (r : Record) (name : String) : Option Json :=
  (r.members.find? fun m => m.1 = name).map Prod.snd

/-- A field that has to be present. -/
def required (r : Record) (name : String) (read : Json → Option α) : Option α := do
  read (← r.find? name)

/-- A field that may be `null`, or absent from an object. -/
def optional (r : Record) (name : String) (read : Json → Option α) : Option (Option α) :=
  match r.find? name with
  | some j => nullable? read j
  | none => if r.positional then none else some none

/-- A field that has a default. -/
def defaulted (r : Record) (name : String) (default : α) (read : Json → Option α) : Option α :=
  match r.find? name with
  | some j => read j
  | none => some default

end Record

mutual

/-- Whether a document can be held in memory: its numbers are in range, its strings are texts, and
it nests at most `depth` levels deep. -/
def isTangible (depth : Nat) : Json → Bool
  | null | bool _ => true
  | number n => n.float?.isSome
  | string raw => (unescape raw).isSome
  | array items => depth ≠ 0 && areTangible (depth - 1) items
  | object members => depth ≠ 0 && membersTangible (depth - 1) members

def areTangible (depth : Nat) : List Json → Bool
  | [] => true
  | j :: js => isTangible depth j && areTangible depth js

def membersTangible (depth : Nat) : List (List Char × Json) → Bool
  | [] => true
  | (key, j) :: ms => (unescape key).isSome && isTangible depth j && membersTangible depth ms

end

/-- The tag of a variant and the document of its other fields. -/
def variant? (tag : String) (depth : Nat) (j : Json) : Option (String × Json) :=
  if !isTangible depth j then none
  else match j with
    | array (first :: rest) => first.text?.map (·, array rest)
    | object members =>
      let isTag := fun (m : List Char × Json) => rawText? m.1 = some tag
      match members.filter isTag with
      | [(_, value)] => value.text?.map (·, object (members.filter fun m => !isTag m))
      | _ => none
    | _ => none

end ScriptBlocks.Json
