import ScriptBlocks.Form

/-!
# The palette

The palette offers every form as an entry of a category, with its default fields and a default
literal, its shadow, for each value slot. Configured categories come first, in their configured
order; a category that nothing belongs to is left out, unless the host fills it. Categories that
only forms name follow, in the order of their first form.

## Main definitions

* `PaletteOptions` — what is configured
* `Palette`, `Vocabulary.palette` — the palette of a vocabulary
-/

namespace ScriptBlocks

/-- A display colour. -/
inductive Colour where
  /-- A hue in degrees. -/
  | hue (degrees : Binary64)
  | hex (code : String)
deriving DecidableEq

/-- The colour as it is displayed. -/
def Colour.toText : Colour → String
  | hue degrees => degrees.toText
  | hex code => code

/-- The literal in a value slot of a palette entry: a form and the value of one of its fields. -/
structure Shadow where
  form : String
  field : String
  value : Value
deriving DecidableEq

/-- The label of a category. -/
def categoryLabel (icon name : String) : String := icon ++ " " ++ name

/-- A configured category. -/
structure CategoryOptions where
  name : String
  colour : Colour
  icon : String := ""
  /-- Marks a category that the host fills. It is always shown and has no entries. -/
  custom : Option String := none
deriving DecidableEq

def CategoryOptions.label (c : CategoryOptions) : String := categoryLabel c.icon c.name

/-- The categories in their usual order. -/
def CategoryOptions.usual : List CategoryOptions :=
  [ { name := "Basic", colour := .hue 220, icon := "⚡" },
    { name := "Input", colour := .hue 290, icon := "🎮" },
    { name := "Music", colour := .hex "#D32F2F", icon := "🎵" },
    { name := "Led", colour := .hue 300, icon := "💡" },
    { name := "Logic", colour := .hue 180.72, icon := "🔀" },
    { name := "Variables", colour := .hex "#A64D79", icon := "📦", custom := some "VARIABLE" },
    { name := "Math", colour := .hex "#F06292", icon := "🔢" },
    { name := "Uncategorized", colour := .hex "#999999", icon := "📋" } ]

/-- A number literal of zero. -/
def Shadow.zero : Shadow := ⟨"math_number", "NUM", .int 0⟩

/-- How the palette is made. -/
structure PaletteOptions where
  /-- The categories in the order of display. -/
  categories : List CategoryOptions := CategoryOptions.usual
  /-- The category of forms that name none. -/
  defaultCategory : String := "Uncategorized"
  /-- The colour of categories that only forms name. -/
  defaultColour : Colour := .hex "#999999ff"
  numberShadow : Shadow := .zero
  textShadow : Shadow := ⟨"text", "TEXT", "Hello!"⟩
  /-- Shadows for the slots of single forms, before those for numbers and texts. An unchecked slot
  has a shadow only if it is listed here. -/
  slotShadows : OrderedMap String (OrderedMap String Shadow) :=
    .ofList [("logic_compare", .ofList [("A", .zero), ("B", .zero)])]
deriving DecidableEq

/-- A form in the palette. -/
structure PaletteEntry where
  form : String
  /-- The default fields, in the order of the template. -/
  fields : Fields
  /-- The literals in the value slots. -/
  shadows : OrderedMap String Shadow
deriving DecidableEq

/-- A category with its entries. -/
structure PaletteCategory where
  name : String
  icon : String
  colour : Colour
  custom : Option String
  entries : List PaletteEntry
deriving DecidableEq

def PaletteCategory.label (c : PaletteCategory) : String := categoryLabel c.icon c.name

/-- The palette: its categories in the order of display. -/
structure Palette where
  categories : List PaletteCategory
deriving DecidableEq

/-- The category of that name. -/
def Palette.category? (p : Palette) (name : String) : Option PaletteCategory :=
  p.categories.find? fun c => c.name = name

namespace PaletteOptions

/-- Whether the palette shows a default for the argument. Pictures, icons and sliders start from the
default of their editors. -/
def showsDefault : Arg → Bool
  | .text .. | .number .. | .dropdown .. | .multilineText .. => true
  | _ => false

/-- The shadow of a slot, if it has one. -/
def shadow? (o : PaletteOptions) (form slot : String) (check : Option Capability) : Option Shadow :=
  match (o.slotShadows.find? form).bind fun shadows => shadows.find? slot with
  | some shadow => some shadow
  | none =>
    match check with
    | some .number => some o.numberShadow
    | some .string => some o.textShadow
    | some .boolean | none => none

/-- The entry of a form. -/
def entry (o : PaletteOptions) (f : Form) : PaletteEntry where
  form := f.name
  fields := .ofList ((f.template.args.filter showsDefault).filterMap Arg.default?)
  shadows := .ofList (f.template.valueSlots.filterMap fun (slot, check) =>
    (o.shadow? f.name slot check).map (slot, ·))

/-- The category that a form belongs to. -/
def categoryOf (o : PaletteOptions) (f : Form) : String := f.category.getD o.defaultCategory

/-- The entries of the forms that belong to a category. -/
def entriesIn (o : PaletteOptions) (v : Vocabulary) (name : String) : List PaletteEntry :=
  (v.forms.filter fun f => o.categoryOf f = name).map o.entry

/-- A configured category, if it is shown. -/
def configured? (o : PaletteOptions) (v : Vocabulary) (c : CategoryOptions) :
    Option PaletteCategory :=
  let entries := if c.custom.isSome then [] else o.entriesIn v c.name
  if c.custom.isNone ∧ entries = [] then none
  else some ⟨c.name, c.icon, c.colour, c.custom, entries⟩

/-- A category that only forms name. -/
def unconfigured (o : PaletteOptions) (v : Vocabulary) (name : String) : PaletteCategory :=
  ⟨name, "📋", o.defaultColour, none, o.entriesIn v name⟩

/-- Adds a category unless there is one of its name. -/
def addCategory (shown : List PaletteCategory) (name : String)
    (category? : Option PaletteCategory) : List PaletteCategory :=
  if shown.any fun c => c.name = name then shown else shown ++ category?.toList

end PaletteOptions

/-- The palette of a vocabulary. -/
def Vocabulary.palette (v : Vocabulary) (o : PaletteOptions) : Palette :=
  let configured := o.categories.foldl
    (fun shown c => PaletteOptions.addCategory shown c.name (o.configured? v c)) []
  ⟨(v.forms.map o.categoryOf).foldl
    (fun shown name => PaletteOptions.addCategory shown name (some (o.unconfigured v name)))
    configured⟩

end ScriptBlocks
