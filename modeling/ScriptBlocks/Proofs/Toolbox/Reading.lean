import ScriptBlocks.Proofs.Toolbox.Markup

/-!
# Reading the toolbox

The toolbox document tells all that a host shows of a palette: the categories in their order with
their labels and colours, and each with its marker or with its entries, their fields and their
shadows. It tells nothing else, so two palettes have the same document exactly when they show the
same, however their labels are made up of icons and names and however their values are typed.

## Main definitions

* `CategoryDisplay`, `EntryDisplay`, `ShadowDisplay` — what is shown
* `Palette.display` — what is shown of a palette
* `Toolbox.read?` — reads what is shown from a document

## Main statements

* `Toolbox.read?_toolbox` — what is shown of a palette can be read from its document
* `Vocabulary.toolbox_faithful` — for every vocabulary and all options
-/

namespace ScriptBlocks

/-! ### What is shown -/

/-- A literal in a slot, with its value as text. -/
structure ShadowDisplay where
  form : String
  field : String
  value : String
deriving DecidableEq

/-- A block that can be taken. -/
structure EntryDisplay where
  form : String
  fields : List (String × String)
  shadows : List (String × ShadowDisplay)
deriving DecidableEq

/-- The blocks of a category, or the marker of the host that fills it. -/
inductive CategoryDisplay.Content where
  | marker (custom : String)
  | entries (entries : List EntryDisplay)
deriving DecidableEq

structure CategoryDisplay where
  label : String
  colour : String
  content : CategoryDisplay.Content
deriving DecidableEq

def Shadow.display (s : Shadow) : ShadowDisplay := ⟨s.form, s.field, s.value.toText⟩

def PaletteEntry.display (e : PaletteEntry) : EntryDisplay where
  form := e.form
  fields := e.fields.entries.map fun (name, value) => (name, value.toText)
  shadows := e.shadows.entries.map fun (slot, shadow) => (slot, shadow.display)

def PaletteCategory.display (c : PaletteCategory) : CategoryDisplay where
  label := c.label
  colour := c.colour.toText
  content :=
    match c.custom with
    | some custom => .marker custom
    | none => .entries (c.entries.map PaletteEntry.display)

/-- What is shown of a palette. -/
def Palette.display (p : Palette) : List CategoryDisplay :=
  p.categories.map PaletteCategory.display

namespace Toolbox

/-! ### The elements of the document -/

section

variable (field : String × String) (shadow : String × ShadowDisplay)

def fieldElement : Element := ⟨"field", [("name", field.1)], [], field.2⟩

def slotElement : Element :=
  ⟨"value", [("name", shadow.1)],
    [⟨"shadow", [("type", shadow.2.form)], [fieldElement (shadow.2.field, shadow.2.value)],
      "\n        "⟩], "\n      "⟩

def entryElement (e : EntryDisplay) : Element :=
  ⟨"block", [("type", e.form)], e.fields.map fieldElement ++ e.shadows.map slotElement, "\n    "⟩

def categoryElement (c : CategoryDisplay) : Element :=
  match c.content with
  | .marker custom =>
    ⟨"category", [("name", c.label), ("colour", c.colour), ("custom", custom)], [], ""⟩
  | .entries entries =>
    ⟨"category", [("name", c.label), ("colour", c.colour)], entries.map entryElement, "\n  "⟩

def documentAttributes : List (String × String) :=
  [("xmlns", "https://developers.google.com/blockly/xml"), ("id", "toolbox-categories"),
    ("style", "display: none")]

def document (categories : List CategoryDisplay) : Element :=
  ⟨"xml", documentAttributes, categories.map categoryElement, "\n"⟩

end

/-! ### Reading the elements -/

def readField : Element → Option (String × String)
  | ⟨"field", [("name", name)], [], value⟩ => some (name, value)
  | _ => none

def readSlot : Element → Option (String × ShadowDisplay)
  | ⟨"value", [("name", slot)], [⟨"shadow", [("type", form)], [field], _⟩], _⟩ => do
    let (name, value) ← readField field
    some (slot, ⟨form, name, value⟩)
  | _ => none

def readEntry : Element → Option EntryDisplay
  | ⟨"block", [("type", form)], content, _⟩ => do
    let fields ← (content.takeWhile fun e => e.name = "field").mapM readField
    let shadows ← (content.dropWhile fun e => e.name = "field").mapM readSlot
    some ⟨form, fields, shadows⟩
  | _ => none

def readCategory : Element → Option CategoryDisplay
  | ⟨"category", [("name", label), ("colour", colour), ("custom", custom)], [], _⟩ =>
    some ⟨label, colour, .marker custom⟩
  | ⟨"category", [("name", label), ("colour", colour)], content, _⟩ => do
    let entries ← content.mapM readEntry
    some ⟨label, colour, .entries entries⟩
  | _ => none

/-- What is shown, from the document. -/
def read? (s : String) : Option (List CategoryDisplay) := do
  match ← elements? s with
  | [⟨"xml", _, categories, _⟩] => categories.mapM readCategory
  | _ => none

theorem mapM_map_of_leftInverse {α β : Type} {f : α → β} {g : β → Option α}
    (h : ∀ a, g (f a) = some a) (l : List α) : (l.map f).mapM g = some l := by
  have hcomp : g ∘ f = fun a => pure (id a) := funext h
  rw [List.mapM_map, hcomp, List.mapM_pure, List.map_id]
  rfl

@[simp] theorem readField_fieldElement (field : String × String) :
    readField (fieldElement field) = some field := rfl

@[simp] theorem readSlot_slotElement (shadow : String × ShadowDisplay) :
    readSlot (slotElement shadow) = some shadow := rfl

theorem readEntry_entryElement (e : EntryDisplay) : readEntry (entryElement e) = some e := by
  have hfields : ∀ e' ∈ e.fields.map fieldElement, decide (e'.name = "field") = true := by
    intro e' he'
    obtain ⟨field, -, rfl⟩ := List.mem_map.1 he'
    rfl
  have hslots : (e.shadows.map slotElement).takeWhile (fun e' => e'.name = "field") = [] ∧
      (e.shadows.map slotElement).dropWhile (fun e' => e'.name = "field") =
        e.shadows.map slotElement := by
    cases e.shadows <;> exact ⟨rfl, rfl⟩
  rw [entryElement, readEntry, List.takeWhile_append_of_pos hfields,
    List.dropWhile_append_of_pos hfields, hslots.1, hslots.2, List.append_nil,
    mapM_map_of_leftInverse readField_fieldElement, mapM_map_of_leftInverse readSlot_slotElement]
  rfl

theorem readCategory_categoryElement (c : CategoryDisplay) :
    readCategory (categoryElement c) = some c := by
  obtain ⟨label, colour, content⟩ := c
  cases content with
  | marker custom => rfl
  | entries entries =>
    rw [categoryElement, readCategory]
    simp only [mapM_map_of_leftInverse readEntry_entryElement]
    rfl

/-! ### The tags of the document -/

def fieldTags (layout : String) (field : String × String) : List Tag :=
  enclose layout "field" [("name", field.1)] [] field.2

def slotTags (shadow : String × ShadowDisplay) : List Tag :=
  enclose "\n      " "value" [("name", shadow.1)]
    (enclose "\n        " "shadow" [("type", shadow.2.form)]
      (fieldTags "\n          " (shadow.2.field, shadow.2.value)) "\n        ") "\n      "

def entryTags (e : EntryDisplay) : List Tag :=
  enclose "\n    " "block" [("type", e.form)]
    (e.fields.flatMap (fieldTags "\n      ") ++ e.shadows.flatMap slotTags) "\n    "

def categoryTags (c : CategoryDisplay) : List Tag :=
  match c.content with
  | .marker custom =>
    enclose "\n  " "category" [("name", c.label), ("colour", c.colour), ("custom", custom)] [] ""
  | .entries entries =>
    enclose "\n  " "category" [("name", c.label), ("colour", c.colour)]
      (entries.flatMap entryTags) "\n  "

def documentTags (categories : List CategoryDisplay) : List Tag :=
  enclose "" "xml" documentAttributes (categories.flatMap categoryTags) "\n"

theorem spells_fieldTags (layout : String) (field : String × String) :
    Spells (fieldTags layout field) [fieldElement field] :=
  Spells.nil.enclose (by decide) (by simp [IsName]) layout field.2

theorem spells_slotTags (shadow : String × ShadowDisplay) :
    Spells (slotTags shadow) [slotElement shadow] :=
  ((spells_fieldTags _ _).enclose (by decide) (by simp [IsName]) _ _).enclose (by decide)
    (by simp [IsName]) _ _

theorem spells_entryTags (e : EntryDisplay) : Spells (entryTags e) [entryElement e] :=
  ((Spells.flatMap (spells_fieldTags _) e.fields).append
    (.flatMap spells_slotTags e.shadows)).enclose (by decide) (by simp [IsName]) _ _

theorem spells_categoryTags (c : CategoryDisplay) :
    Spells (categoryTags c) [categoryElement c] := by
  obtain ⟨label, colour, content⟩ := c
  cases content with
  | marker custom => exact Spells.nil.enclose (by decide) (by simp [IsName]) _ _
  | entries entries =>
    exact (Spells.flatMap spells_entryTags entries).enclose (by decide) (by simp [IsName]) _ _

theorem spells_documentTags (categories : List CategoryDisplay) :
    Spells (documentTags categories) [document categories] :=
  (Spells.flatMap spells_categoryTags categories).enclose (by decide)
    (by simp [documentAttributes, IsName]) _ _

/-! ### The document -/

/-- The document ends lines after elements, where a reader takes them as text in front of the next
tag. -/
theorem append_join {α : Type} {f g : α → String} {l : List α}
    (h : ∀ a ∈ l, "\n" ++ f a = g a ++ "\n") :
    "\n" ++ String.join (l.map f) = String.join (l.map g) ++ "\n" := by
  induction l with
  | nil => rfl
  | cons a l ih =>
    obtain ⟨ha, hl⟩ := List.forall_mem_cons.1 h
    rw [List.map_cons, String.join_cons, ← String.append_assoc, ha, String.append_assoc, ih hl,
      List.map_cons, String.join_cons, String.append_assoc]

theorem write_fieldTags {layout : String} (hlayout : ∀ c ∈ layout.toList, c ∉ reserved)
    (field : String × String) :
    write (fieldTags layout field) =
      layout ++ "<field" ++ attr "name" field.1 ++ ">" ++ escape field.2 ++ "</field>" := by
  rw [fieldTags, write_enclose hlayout, ← String.toList_inj]
  simp [Tag.attributeText, write]

theorem write_slotTags (name : String) (shadow : Shadow) :
    write (slotTags (name, shadow.display)) = slot name shadow := by
  have hend : escape "\n        " = "\n        " ∧ escape "\n      " = "\n      " :=
    ⟨escape_eq_self (by decide), escape_eq_self (by decide)⟩
  rw [slotTags, write_enclose (by decide), write_enclose (by decide), write_fieldTags (by decide)]
  unfold slot field
  refine String.toList_inj.1 ?_
  simp [Tag.attributeText, hend, Shadow.display]

theorem newline_append_entry (e : PaletteEntry) :
    "\n" ++ entry e = write (entryTags e.display) ++ "\n" := by
  have hfields : write (e.display.fields.flatMap (fieldTags "\n      ")) =
      String.join (e.fields.entries.map fun (name, value) => "\n      " ++ field name value) := by
    rw [write_flatMap, PaletteEntry.display, List.map_map]
    refine congrArg _ (List.map_congr_left fun ⟨name, value⟩ _ => ?_)
    rw [Function.comp_apply, write_fieldTags (by decide)]
    simp [field, ← String.toList_inj]
  have hslots : write (e.display.shadows.flatMap slotTags) =
      String.join (e.shadows.entries.map fun (name, shadow) => slot name shadow) := by
    rw [write_flatMap, PaletteEntry.display, List.map_map]
    refine congrArg _ (List.map_congr_left fun ⟨name, shadow⟩ _ => ?_)
    rw [Function.comp_apply, write_slotTags]
  have hend : escape "\n    " = "\n    " := escape_eq_self (by decide)
  have hform : e.display.form = e.form := rfl
  rw [entryTags, write_enclose (by decide), write_append, hfields, hslots]
  unfold entry
  refine String.toList_inj.1 ?_
  simp [Tag.attributeText, hend, hform]

theorem newline_append_category (c : PaletteCategory) :
    "\n" ++ category c = write (categoryTags c.display) ++ "\n" := by
  have hentries : "\n" ++ String.join (c.entries.map entry) =
      write ((c.entries.map PaletteEntry.display).flatMap entryTags) ++ "\n" := by
    rw [append_join fun e _ => newline_append_entry e, List.flatMap_map, write_flatMap]
  have hend : escape "\n  " = "\n  " ∧ escape "" = "" :=
    ⟨escape_eq_self (by decide), escape_eq_self (by decide)⟩
  unfold category
  rw [categoryTags, PaletteCategory.display]
  cases c.custom with
  | some custom =>
    dsimp only
    rw [write_enclose (by decide)]
    refine String.toList_inj.1 ?_
    simp [Tag.attributeText, write, hend]
  | none =>
    dsimp only
    rw [write_enclose (by decide), hend.1]
    calc "\n" ++ ("  <category" ++ attr "name" c.label ++ attr "colour" c.colour.toText ++ ">\n" ++
          String.join (c.entries.map entry) ++ "  </category>\n")
      _ = "\n  <category" ++ attr "name" c.label ++ attr "colour" c.colour.toText ++ ">" ++
          ("\n" ++ String.join (c.entries.map entry)) ++ "  </category>\n" := by
        simp [← String.toList_inj]
      _ = _ := by
        rw [hentries]
        simp [Tag.attributeText, ← String.toList_inj]

theorem toolbox_eq_write (p : Palette) : p.toolbox = write (documentTags p.display) := by
  have hcategories : "\n" ++ String.join (p.categories.map category) =
      write (p.display.flatMap categoryTags) ++ "\n" := by
    rw [append_join fun c _ => newline_append_category c, Palette.display, List.flatMap_map,
      write_flatMap]
  have hheader : header = "<xml" ++ Tag.attributeText documentAttributes ++ ">" ++ "\n" := by
    decide +kernel
  have hend : escape "\n" = "\n" := escape_eq_self (by decide)
  rw [documentTags, write_enclose (by decide), hend]
  calc p.toolbox
    _ = "<xml" ++ Tag.attributeText documentAttributes ++ ">" ++
        ("\n" ++ String.join (p.categories.map category)) ++ "</xml>" := by
      rw [Palette.toolbox, hheader]
      simp only [String.append_assoc]
    _ = _ := by
      rw [hcategories]
      simp [← String.toList_inj]

/-- What is shown of a palette can be read from its document. -/
theorem read?_toolbox (p : Palette) : read? p.toolbox = some p.display := by
  rw [read?, toolbox_eq_write, (spells_documentTags p.display).elements?_write]
  exact mapM_map_of_leftInverse readCategory_categoryElement p.display

end Toolbox

/-- What is shown of a palette can be read from its document, so two palettes have one document
exactly when they show the same. -/
theorem Vocabulary.toolbox_faithful (v : Vocabulary) (o : PaletteOptions) :
    Toolbox.read? (v.palette o).toolbox = some (v.palette o).display ∧
      ∀ (v' : Vocabulary) (o' : PaletteOptions),
        (v.palette o).toolbox = (v'.palette o').toolbox ↔
          (v.palette o).display = (v'.palette o').display := by
  refine ⟨Toolbox.read?_toolbox _, fun v' o' => ⟨fun h => ?_, fun h => ?_⟩⟩
  · have hread := Toolbox.read?_toolbox (v.palette o)
    rw [h, Toolbox.read?_toolbox] at hread
    exact (Option.some.inj hread).symm
  · rw [Toolbox.toolbox_eq_write, Toolbox.toolbox_eq_write, h]

end ScriptBlocks
