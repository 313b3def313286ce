import ScriptBlocks.Palette.Basic

/-!
# The toolbox

The palette as the XML document that an editor host loads. The characters that would end a text or
an attribute are written as entities.

## Main definitions

* `Toolbox.escape` — a text in the document
* `Palette.toolbox` — the document
-/

namespace ScriptBlocks

namespace Toolbox

/-- The written form of one character. -/
def escapeChar (c : Char) : List Char :=
  match c with
  | '&' => "&amp;".toList
  | '<' => "&lt;".toList
  | '>' => "&gt;".toList
  | '"' => "&quot;".toList
  | c => [c]

/-- A text in the document. -/
def escape (s : String) : String := String.ofList (s.toList.flatMap escapeChar)

/-- An attribute of a tag, with the space before it. -/
def attr (name value : String) : String := " " ++ name ++ "=\"" ++ escape value ++ "\""

/-- The default of a field. -/
def field (name : String) (value : Value) : String :=
  "<field" ++ attr "name" name ++ ">" ++ escape value.toText ++ "</field>"

/-- The shadow in a slot. -/
def slot (name : String) (shadow : Shadow) : String :=
  "\n      <value" ++ attr "name" name ++ ">\n        <shadow" ++
    attr "type" shadow.form ++ ">\n          " ++ field shadow.field shadow.value ++
    "\n        </shadow>\n      </value>"

/-- A block that can be taken from the toolbox. -/
def entry (e : PaletteEntry) : String :=
  "    <block" ++ attr "type" e.form ++ ">" ++
    String.join (e.fields.entries.map fun (name, value) => "\n      " ++ field name value) ++
    String.join (e.shadows.entries.map fun (name, shadow) => slot name shadow) ++
    "\n    </block>\n"

/-- A category with its blocks. One that the host fills is marked, and has none. -/
def category (c : PaletteCategory) : String :=
  let tag := "  <category" ++ attr "name" c.label ++ attr "colour" c.colour.toText
  match c.custom with
  | some custom => tag ++ attr "custom" custom ++ "></category>\n"
  | none => tag ++ ">\n" ++ String.join (c.entries.map entry) ++ "  </category>\n"

/-- The start tag of the document. -/
def header : String :=
  "<xml xmlns=\"https://developers.google.com/blockly/xml\" id=\"toolbox-categories\" " ++
    "style=\"display: none\">\n"

end Toolbox

/-- The toolbox document of a palette. -/
def Palette.toolbox (p : Palette) : String :=
  Toolbox.header ++ String.join (p.categories.map Toolbox.category) ++ "</xml>"

end ScriptBlocks
