import ScriptBlocks.Document.Scalar
import ScriptBlocks.Options

/-!
# Documents of options and palettes

A document of options needs to hold only what differs from the defaults: in each of its four records
every member may be left out. A category marker that is absent is not written.

## Main definitions

* `Options.toText`, `Options.parse` — writing and reading options
* `Palette.toText` — the document of a palette
-/

namespace ScriptBlocks

namespace Colour

def toJson : Colour → Json
  | hue degrees => .ofFloat degrees
  | hex code => .ofText code

def ofJson? : Json → Option Colour
  | .number n => n.float?.map hue
  | .string raw => (Json.rawText? raw).map hex
  | _ => none

end Colour

namespace Shadow

def toJson (s : Shadow) : Json :=
  .ofMembers
    [("type_name", .ofText s.form), ("field", .ofText s.field),
      ("value", s.value.toJson .ofFloat)]

def ofJson? (j : Json) : Option Shadow := do
  let r ← j.record? ["type_name", "field", "value"]
  return {
    form := ← r.required "type_name" Json.text?
    field := ← r.required "field" Json.text?
    value := ← r.required "value" Value.ofJson? }

end Shadow

/-- The member for a category marker, if there is one. -/
def customMember (custom : Option String) : List (String × Json) :=
  (custom.map fun c => ("custom", Json.ofText c)).toList

namespace CategoryOptions

def toJson (c : CategoryOptions) : Json :=
  .ofMembers
    ([("name", .ofText c.name), ("colour", c.colour.toJson), ("icon", .ofText c.icon)] ++
      customMember c.custom)

def ofJson? (j : Json) : Option CategoryOptions := do
  let r ← j.record? ["name", "colour", "icon", "custom"]
  return {
    name := ← r.required "name" Json.text?
    colour := ← r.required "colour" Colour.ofJson?
    icon := ← r.defaulted "icon" "" Json.text?
    custom := ← r.defaulted "custom" none (Json.nullable? Json.text?) }

end CategoryOptions

namespace ReadingOptions

def toJson (o : ReadingOptions) : Json :=
  .ofMembers
    [("comment_prefix", .ofText o.commentMark), ("skip_lines", .array (o.skipLines.map .ofText))]

def ofJson? (j : Json) : Option ReadingOptions := do
  let r ← j.record? ["comment_prefix", "skip_lines"]
  let default : ReadingOptions := {}
  return {
    commentMark := ← r.defaulted "comment_prefix" default.commentMark Json.text?
    skipLines := ← r.defaulted "skip_lines" default.skipLines (Json.list? Json.text?) }

end ReadingOptions

namespace WritingOptions

def toJson (o : WritingOptions) : Json :=
  .ofMembers
    [("indent", .ofText o.indent), ("empty_body", .ofText o.emptyBody),
      ("fallback_variable", .ofText o.fallbackVariable)]

def ofJson? (j : Json) : Option WritingOptions := do
  let r ← j.record? ["indent", "empty_body", "fallback_variable"]
  let default : WritingOptions := {}
  return {
    indent := ← r.defaulted "indent" default.indent Json.text?
    emptyBody := ← r.defaulted "empty_body" default.emptyBody Json.text?
    fallbackVariable := ← r.defaulted "fallback_variable" default.fallbackVariable Json.text? }

end WritingOptions

namespace PaletteOptions

def toJson (o : PaletteOptions) : Json :=
  .ofMembers
    [("categories", .array (o.categories.map CategoryOptions.toJson)),
      ("default_category", .ofText o.defaultCategory),
      ("default_colour", o.defaultColour.toJson),
      ("number_shadow", o.numberShadow.toJson), ("text_shadow", o.textShadow.toJson),
      ("slot_shadows", o.slotShadows.toJson fun shadows => shadows.toJson Shadow.toJson)]

def ofJson? (j : Json) : Option PaletteOptions := do
  let r ← j.record?
    ["categories", "default_category", "default_colour", "number_shadow", "text_shadow",
      "slot_shadows"]
  let default : PaletteOptions := {}
  return {
    categories :=
      ← r.defaulted "categories" default.categories (Json.list? CategoryOptions.ofJson?)
    defaultCategory := ← r.defaulted "default_category" default.defaultCategory Json.text?
    defaultColour := ← r.defaulted "default_colour" default.defaultColour Colour.ofJson?
    numberShadow := ← r.defaulted "number_shadow" default.numberShadow Shadow.ofJson?
    textShadow := ← r.defaulted "text_shadow" default.textShadow Shadow.ofJson?
    slotShadows := ← r.defaulted "slot_shadows" default.slotShadows
      (Json.entries? (Json.entries? Shadow.ofJson?)) }

end PaletteOptions

namespace Options

def toJson (o : Options) : Json :=
  .ofMembers
    [("decoder", o.reading.toJson), ("encoder", o.writing.toJson), ("palette", o.palette.toJson)]

def ofJson? (j : Json) : Option Options := do
  let r ← j.record? ["decoder", "encoder", "palette"]
  return {
    reading := ← r.defaulted "decoder" {} ReadingOptions.ofJson?
    writing := ← r.defaulted "encoder" {} WritingOptions.ofJson?
    palette := ← r.defaulted "palette" {} PaletteOptions.ofJson? }

/-- The text of the document of options. -/
def toText (o : Options) : String := o.toJson.pretty

/-- The options in the text of a document. -/
def parse (text : String) : Except Error Options :=
  match (Json.parse text).bind ofJson? with
  | some o => .ok o
  | none => .error .malformedDocument

end Options

namespace PaletteEntry

def toJson (e : PaletteEntry) : Json :=
  .ofMembers
    [("type_name", .ofText e.form), ("fields", e.fields.toJson (Value.toJson .ofFloat)),
      ("shadows", e.shadows.toJson Shadow.toJson)]

end PaletteEntry

namespace PaletteCategory

def toJson (c : PaletteCategory) : Json :=
  .ofMembers
    ([("name", .ofText c.name), ("icon", .ofText c.icon), ("colour", c.colour.toJson)] ++
      customMember c.custom ++ [("entries", .array (c.entries.map PaletteEntry.toJson))])

end PaletteCategory

/-- The text of the document of a palette. -/
def Palette.toText (p : Palette) : String :=
  (Json.ofMembers [("categories", .array (p.categories.map PaletteCategory.toJson))]).pretty

end ScriptBlocks
