import ScriptBlocks.Document.Options
import ScriptBlocks.Proofs.Document.Block
import ScriptBlocks.Proofs.Json.Edit

/-!
# The documents of options

Options are read back from their document as they were, provided that colours are given by their
codes and that no shadow holds a float. A host may leave out any members of the document and of its
three parts: those are read as their defaults, and all others as before. Members that the options do
not know make no difference.

## Main definitions

* `PaletteOptions.Exact` — the palette has an exact document
* `Options.Omission` — which members are left out
* `Options.without` — the options with defaults for the members that are left out
* `Options.EditedTo` — the documents of options that were edited

## Main statements

* `Colour.ofJson?_toJson`, `Shadow.ofJson?_toJson`, `CategoryOptions.ofJson?_toJson` — reading what
  was written
* `Options.ofJson?_of_editedTo` — edited options are read with defaults for what is missing
* `Options.parse_of_editedTo` — the same for texts
-/

namespace ScriptBlocks

open Json

variable {dropped : List String} {j : Json}

/-! ### The parts of a palette -/

namespace Colour

/-- Whether the colour is given by its code. -/
def isHex : Colour → Bool
  | hue _ => false
  | hex _ => true

variable {c : Colour}

theorem ofJson?_toJson (h : c.isHex = true) : ofJson? c.toJson = some c := by
  cases c with
  | hue => exact nomatch h
  | hex code => exact congrArg (Option.map hex) (rawText?_escape code)

theorem proper_toJson (h : c.isHex = true) : c.toJson.Proper := by
  cases c with
  | hue => exact nomatch h
  | hex code => exact proper_ofText code

end Colour

namespace Shadow

variable {s : Shadow}

theorem ofJson?_toJson (h : s.value.isFloat = false) : ofJson? s.toJson = some s := by
  rw [toJson, ofJson?, record?_ofMembers ["type_name", "field", "value"] (by decide) rfl]
  simp [Record.required, Record.find?, Value.ofJson?_toJson h]

theorem proper_toJson (h : s.value.isFloat = false) : s.toJson.Proper := by
  refine .ofMembers ?_
  simp [proper_ofText, Value.proper_toJson h]

end Shadow

namespace CategoryOptions

variable {c : CategoryOptions}

/-- A category is read back whether or not it has a marker. -/
theorem ofJson?_toJson (h : c.colour.isHex = true) : ofJson? c.toJson = some c := by
  have hcolour := Colour.ofJson?_toJson h
  obtain ⟨name, colour, icon, custom⟩ := c
  have hnames : (([("name", ofText name), ("colour", colour.toJson), ("icon", ofText icon)] ++
      customMember custom).map Prod.fst).Sublist ["name", "colour", "icon", "custom"] := by
    cases custom with
    | none => exact List.sublist_append_left ["name", "colour", "icon"] ["custom"]
    | some => exact List.Sublist.refl _
  rw [toJson, ofJson?, record?_ofMembers_of_sublist (by decide) hnames]
  cases custom with
  | none => simp [Record.required, Record.defaulted, Record.find?, customMember, hcolour]
  | some marker =>
    have hmarker : nullable? text? (ofOption ofText (some marker)) = some (some marker) :=
      nullable?_ofOption (fun _ h => by cases h) fun marker _ => text?_ofText marker
    rw [ofOption] at hmarker
    simp [Record.required, Record.defaulted, Record.find?, customMember, hcolour, hmarker]

theorem proper_toJson (h : c.colour.isHex = true) : c.toJson.Proper := by
  refine .ofMembers fun m hm => ?_
  rcases List.mem_append.1 hm with hm | hm
  · have hall : ∀ m ∈ [("name", ofText c.name), ("colour", c.colour.toJson),
        ("icon", ofText c.icon)], m.2.Proper := by
      simp [proper_ofText, Colour.proper_toJson h]
    exact hall m hm
  · obtain ⟨custom, -, rfl⟩ := Option.map_eq_some_iff.1 (Option.mem_toList.1 hm)
    exact proper_ofText custom

end CategoryOptions

/-! ### Records with defaults

Each of the records is read with the members that are left, and with a default for every other. -/

namespace ReadingOptions

/-- The names of the members. -/
def names : List String := ["comment_prefix", "skip_lines"]

/-- The options with defaults for the dropped members. -/
def without (o : ReadingOptions) (dropped : List String) : ReadingOptions :=
  let default : ReadingOptions := {}
  { commentMark := if "comment_prefix" ∈ dropped then default.commentMark else o.commentMark
    skipLines := if "skip_lines" ∈ dropped then default.skipLines else o.skipLines }

variable {o : ReadingOptions}

theorem ofJson?_of_edits (h : Edits names dropped o.toJson j) :
    ofJson? j = some (o.without dropped) := by
  have hlines : list? text? (.array (o.skipLines.map .ofText)) = some o.skipLines :=
    list?_map fun line _ => text?_ofText line
  have hrecord : j.record? ["comment_prefix", "skip_lines"] = _ :=
    record?_of_edits h (record?_ofMembers names (by decide) rfl)
  rw [ofJson?, hrecord]
  simp [Record.defaulted_without, Record.required, Record.find?, hlines, without]

theorem proper_toJson (o : ReadingOptions) : o.toJson.Proper := by
  have hlines : (Json.array (o.skipLines.map .ofText)).Proper := .map fun line _ => proper_ofText line
  refine .ofMembers ?_
  simp [proper_ofText, hlines]

end ReadingOptions

namespace WritingOptions

/-- The names of the members. -/
def names : List String := ["indent", "empty_body", "fallback_variable"]

/-- The options with defaults for the dropped members. -/
def without (o : WritingOptions) (dropped : List String) : WritingOptions :=
  let default : WritingOptions := {}
  { indent := if "indent" ∈ dropped then default.indent else o.indent
    emptyBody := if "empty_body" ∈ dropped then default.emptyBody else o.emptyBody
    fallbackVariable :=
      if "fallback_variable" ∈ dropped then default.fallbackVariable else o.fallbackVariable }

variable {o : WritingOptions}

theorem ofJson?_of_edits (h : Edits names dropped o.toJson j) :
    ofJson? j = some (o.without dropped) := by
  have hrecord : j.record? ["indent", "empty_body", "fallback_variable"] = _ :=
    record?_of_edits h (record?_ofMembers names (by decide) rfl)
  rw [ofJson?, hrecord]
  simp [Record.defaulted_without, Record.required, Record.find?, without]

theorem proper_toJson (o : WritingOptions) : o.toJson.Proper := by
  refine .ofMembers ?_
  simp [proper_ofText]

end WritingOptions

namespace PaletteOptions

/-- The names of the members. -/
def names : List String :=
  ["categories", "default_category", "default_colour", "number_shadow", "text_shadow",
    "slot_shadows"]

/-- The options with defaults for the dropped members. -/
def without (o : PaletteOptions) (dropped : List String) : PaletteOptions :=
  let default : PaletteOptions := {}
  { categories := if "categories" ∈ dropped then default.categories else o.categories
    defaultCategory :=
      if "default_category" ∈ dropped then default.defaultCategory else o.defaultCategory
    defaultColour := if "default_colour" ∈ dropped then default.defaultColour else o.defaultColour
    numberShadow := if "number_shadow" ∈ dropped then default.numberShadow else o.numberShadow
    textShadow := if "text_shadow" ∈ dropped then default.textShadow else o.textShadow
    slotShadows := if "slot_shadows" ∈ dropped then default.slotShadows else o.slotShadows }

/-- Colours are given by their codes, and no shadow holds a float: what the document of the options
says is exactly what they are. -/
structure Exact (o : PaletteOptions) : Prop where
  categories {c : CategoryOptions} : c ∈ o.categories → c.colour.isHex = true
  defaultColour : o.defaultColour.isHex = true
  numberShadow : o.numberShadow.value.isFloat = false
  textShadow : o.textShadow.value.isFloat = false
  slotShadows {shadows : OrderedMap String Shadow} {s : Shadow} :
    shadows ∈ o.slotShadows.values → s ∈ shadows.values → s.value.isFloat = false

variable {o : PaletteOptions}

theorem ofJson?_of_edits (ho : o.Exact) (h : Edits names dropped o.toJson j) :
    ofJson? j = some (o.without dropped) := by
  have hcategories : list? CategoryOptions.ofJson?
      (.array (o.categories.map CategoryOptions.toJson)) = some o.categories :=
    list?_map fun c hc => CategoryOptions.ofJson?_toJson (ho.categories hc)
  have hslots : entries? (entries? Shadow.ofJson?)
      (o.slotShadows.toJson fun shadows => shadows.toJson Shadow.toJson) = some o.slotShadows :=
    entries?_toJson fun shadows hshadows =>
      entries?_toJson fun s hs => Shadow.ofJson?_toJson (ho.slotShadows hshadows hs)
  have hrecord : j.record? ["categories", "default_category", "default_colour", "number_shadow",
      "text_shadow", "slot_shadows"] = _ :=
    record?_of_edits h (record?_ofMembers names (by decide) rfl)
  rw [ofJson?, hrecord]
  simp [Record.defaulted_without, Record.required, Record.find?, hcategories, hslots,
    Colour.ofJson?_toJson ho.defaultColour, Shadow.ofJson?_toJson ho.numberShadow,
    Shadow.ofJson?_toJson ho.textShadow, without]

theorem proper_toJson (ho : o.Exact) : o.toJson.Proper := by
  have hcategories : (Json.array (o.categories.map CategoryOptions.toJson)).Proper :=
    .map fun c hc => CategoryOptions.proper_toJson (ho.categories hc)
  have hslots : (o.slotShadows.toJson fun shadows => shadows.toJson Shadow.toJson).Proper :=
    .toJson fun shadows hshadows =>
      .toJson fun s hs => Shadow.proper_toJson (ho.slotShadows hshadows hs)
  refine .ofMembers ?_
  simp [proper_ofText, hcategories, hslots, Colour.proper_toJson ho.defaultColour,
    Shadow.proper_toJson ho.numberShadow, Shadow.proper_toJson ho.textShadow]

end PaletteOptions

/-! ### Options -/

namespace Options

/-- The names of the members. -/
def names : List String := ["decoder", "encoder", "palette"]

/-- The names of the members that are left out: of the document itself, and of its three parts. -/
structure Omission where
  top : List String := []
  decoder : List String := []
  encoder : List String := []
  palette : List String := []

/-- The options with defaults for the members that are left out. -/
def without (o : Options) (x : Omission) : Options where
  reading := if "decoder" ∈ x.top then {} else o.reading.without x.decoder
  writing := if "encoder" ∈ x.top then {} else o.writing.without x.encoder
  palette := if "palette" ∈ x.top then {} else o.palette.without x.palette

/-- The document is that of the options, without the members that are left out, and with any members
of other names added to the document and to its three parts. -/
inductive EditedTo (o : Options) (x : Omission) : Json → Prop where
  | mk {decoder encoder palette j : Json} :
    Edits ReadingOptions.names x.decoder o.reading.toJson decoder →
    Edits WritingOptions.names x.encoder o.writing.toJson encoder →
    Edits PaletteOptions.names x.palette o.palette.toJson palette →
    Edits names x.top
      (.ofMembers [("decoder", decoder), ("encoder", encoder), ("palette", palette)]) j →
    EditedTo o x j

variable {o : Options}

/-- Edited options are read with defaults for what is missing. -/
theorem ofJson?_of_editedTo {x : Omission} (ho : o.palette.Exact) (h : o.EditedTo x j) :
    ofJson? j = some (o.without x) := by
  obtain ⟨hdecoder, hencoder, hpalette, htop⟩ := h
  have hrecord : j.record? ["decoder", "encoder", "palette"] = _ :=
    record?_of_edits htop (record?_ofMembers names (by decide) rfl)
  rw [ofJson?, hrecord]
  simp [Record.defaulted_without, Record.required, Record.find?,
    ReadingOptions.ofJson?_of_edits hdecoder, WritingOptions.ofJson?_of_edits hencoder,
    PaletteOptions.ofJson?_of_edits ho hpalette, without]

theorem editedTo_toJson (o : Options) : o.EditedTo {} o.toJson :=
  .mk (edits_ofMembers _ _) (edits_ofMembers _ _) (edits_ofMembers _ _) (edits_ofMembers _ _)

theorem without_nothing (o : Options) : o.without {} = o := by
  simp [without, ReadingOptions.without, WritingOptions.without, PaletteOptions.without]

theorem proper_toJson (ho : o.palette.Exact) : o.toJson.Proper := by
  refine .ofMembers ?_
  simp [ReadingOptions.proper_toJson, WritingOptions.proper_toJson, PaletteOptions.proper_toJson ho]

theorem hasText_toText (ho : o.palette.Exact) : o.toJson.HasText o.toText :=
  (spells_pretty _).hasText (proper_toJson ho)

/-- Options are read back from their text. From any text of their document in which members were
left out and others added, they are read with defaults for just what is missing. -/
theorem parse_of_editedTo (ho : o.palette.Exact) :
    parse o.toText = .ok o ∧
      ∀ (x : Omission) (j : Json) (text : String), o.EditedTo x j → j.HasText text →
        parse text = .ok (o.without x) := by
  have hedited (x : Omission) (j : Json) (text : String) (h : o.EditedTo x j)
      (htext : j.HasText text) : parse text = .ok (o.without x) := by
    rw [parse, parse_of_hasText htext, Option.bind_some, ofJson?_of_editedTo ho h]
  refine ⟨?_, hedited⟩
  have hread := hedited {} o.toJson o.toText (editedTo_toJson o) (hasText_toText ho)
  rwa [without_nothing] at hread

/-- Tabs for indentation and the shadows of single slots are what is left of a document to which a
list, a member of another record and two members of one name were added. -/
theorem parse_of_editedTo_tabs :
    let o : Options :=
      { reading := { commentMark := "//" }
        writing := { indent := "\t", emptyBody := "..." }
        palette :=
          { categories := [{ name := "Größe", colour := .hex "#fff", custom := some "VARIABLE" }]
            numberShadow := ⟨"number", "N", .int (-1)⟩
            slotShadows := .ofList [("b", .ofList [("B", ⟨"text", "TEXT", "\"q\""⟩)]), ("a", ∅)] } }
    let slots : Json := o.palette.slotShadows.toJson fun shadows => shadows.toJson Shadow.toJson
    let encoder : Json := .ofMembers [("indent", .ofText "\t"), ("skip_lines", .bool true)]
    let palette : Json := .ofMembers [("x", .null), ("slot_shadows", slots), ("x", .ofInt (-1))]
    let j : Json := .ofMembers
      [("größe", .array [.null, encoder]), ("encoder", encoder), ("palette", palette)]
    o.palette.Exact ∧ parse o.toText = .ok o ∧
      parse j.pretty = .ok
        { writing := { indent := "\t" }, palette := { slotShadows := o.palette.slotShadows } } := by
  intro o slots encoder palette j
  have hslots : ∀ shadows ∈ o.palette.slotShadows.values, ∀ s ∈ shadows.values,
      s.value.isFloat = false := by
    decide +kernel
  have hexact : o.palette.Exact :=
    { categories := fun {c} hc => by rw [List.mem_singleton.1 hc]; rfl
      defaultColour := rfl
      numberShadow := rfl
      textShadow := rfl
      slotShadows := fun hshadows hs => hslots _ hshadows _ hs }
  let x : Omission :=
    { top := ["decoder"]
      encoder := ["empty_body", "fallback_variable"]
      palette :=
        ["categories", "default_category", "default_colour", "number_shadow", "text_shadow"] }
  have hkey (name : String) : rawText? (escape name.toList) = some name := rawText?_escape name
  have hencoder : Edits WritingOptions.names x.encoder o.writing.toJson encoder :=
    .object (.keep (hkey _) (by decide) (.drop (hkey _) (by decide) (.drop (hkey _) (by decide)
      (.add (hkey _) (by decide) .nil))))
  have hpalette : Edits PaletteOptions.names x.palette o.palette.toJson palette :=
    .object (.add (hkey _) (by decide) (.drop (hkey _) (by decide) (.drop (hkey _) (by decide)
      (.drop (hkey _) (by decide) (.drop (hkey _) (by decide) (.drop (hkey _) (by decide)
        (.keep (hkey _) (by decide) (.add (hkey _) (by decide) .nil))))))))
  have hedited : o.EditedTo x j :=
    .mk (edits_ofMembers _ _) hencoder hpalette (.object (.add (hkey _) (by decide)
      (.drop (hkey _) (by decide) (.keep (hkey _) (by decide) (.keep (hkey _) (by decide) .nil)))))
  have hproper : j.Proper := by
    have hslotsProper : slots.Proper := .toJson fun shadows hshadows =>
      .toJson fun s hs => Shadow.proper_toJson (hslots shadows hshadows s hs)
    have hencoderProper : encoder.Proper := .ofMembers (by simp [proper_ofText, Proper.bool])
    have hpaletteProper : palette.Proper :=
      .ofMembers (by simp [Proper.null, proper_ofInt, hslotsProper])
    have hlist : (Json.array [.null, encoder]).Proper :=
      .array (by simp [Proper.null, hencoderProper])
    exact .ofMembers (by simp [hlist, hencoderProper, hpaletteProper])
  obtain ⟨hread, hreadEdited⟩ := parse_of_editedTo hexact
  exact ⟨hexact, hread, hreadEdited x j j.pretty hedited ((spells_pretty j).hasText hproper)⟩

end Options

end ScriptBlocks
