import ScriptBlocks.Palette.Toolbox
import Mathlib.Data.List.Basic

/-!
# Reading markup

A reader of documents such as the toolbox, which knows nothing of what they are about. It divides
the document into tags at `>`, each tag from the text in front of it at `<`, the values of the
attributes from their names at the quotation marks, and undoes the four entities. As no delimiter
is left in an escaped text, the tags that were written are read again, whatever texts they carry;
and tags that are nested give elements within elements.

## Main definitions

* `Toolbox.Tag`, `Toolbox.Tag.write`, `Toolbox.readTags` — a tag, how it is written and how the tags
  of a document are read
* `Toolbox.Element`, `Toolbox.elements?` — the elements that the nested tags of a document stand for
* `Toolbox.Spells` — the tags that are read as given elements

## Main statements

* `Toolbox.unescape_escape` — the entities give the text back
* `Toolbox.readTags_write` — a document gives its tags back
* `Toolbox.Spells.enclose` — a start tag, the tags of the content and an end tag spell an element
* `Toolbox.Spells.elements?_write` — a document gives the elements back that its tags spell
-/

namespace ScriptBlocks

namespace Toolbox

/-! ### Entities -/

/-- The text with the four entities undone. -/
def unescape : List Char → List Char
  | '&' :: 'a' :: 'm' :: 'p' :: ';' :: s => '&' :: unescape s
  | '&' :: 'l' :: 't' :: ';' :: s => '<' :: unescape s
  | '&' :: 'g' :: 't' :: ';' :: s => '>' :: unescape s
  | '&' :: 'q' :: 'u' :: 'o' :: 't' :: ';' :: s => '"' :: unescape s
  | c :: s => c :: unescape s
  | [] => []

/-- The characters that are not written as themselves. -/
def reserved : List Char := ['&', '<', '>', '"']

theorem escapeChar_of_not_mem {c : Char} (h : c ∉ reserved) : escapeChar c = [c] := by
  unfold escapeChar
  split
  iterate 4 exact absurd (by decide) h
  rfl

theorem unescape_escapeChar (c : Char) (s : List Char) :
    unescape (escapeChar c ++ s) = c :: unescape s := by
  by_cases h : c ∈ reserved
  · simp only [reserved, List.mem_cons, List.not_mem_nil, or_false] at h
    rcases h with rfl | rfl | rfl | rfl <;> rfl
  · have hne : c ≠ '&' := fun heq => h (heq ▸ .head _)
    rw [escapeChar_of_not_mem h, List.singleton_append, unescape] <;> simp [hne]

@[simp] theorem unescape_escape (s : String) : unescape (escape s).toList = s.toList := by
  rw [escape, String.toList_ofList]
  induction s.toList with
  | nil => rfl
  | cons c s ih => rw [List.flatMap_cons, unescape_escapeChar, ih]

/-- No delimiter is left in an escaped text. -/
theorem not_mem_escape {c : Char} (h : c ∈ ['<', '>', '"']) (s : String) :
    c ∉ (escape s).toList := by
  have hchar (d : Char) : c ∉ escapeChar d := by
    by_cases hd : d ∈ reserved
    · simp only [reserved, List.mem_cons, List.not_mem_nil, or_false] at h hd
      rcases h with rfl | rfl | rfl <;> rcases hd with rfl | rfl | rfl | rfl <;> decide
    · rw [escapeChar_of_not_mem hd, List.mem_singleton]
      rintro rfl
      exact hd (.tail _ h)
  rw [escape, String.toList_ofList, List.mem_flatMap]
  exact fun ⟨d, _, hd⟩ => hchar d hd

/-! ### Tags -/

/-- A tag, with the text in front of it. -/
structure Tag where
  text : String
  /-- Whether it is an end tag. -/
  closes : Bool
  name : String
  attributes : List (String × String)
deriving DecidableEq

/-- A name of an element or of an attribute. -/
def IsName (s : String) : Prop := s.toList.all Char.isAlpha = true

instance (s : String) : Decidable (IsName s) := inferInstanceAs (Decidable (_ = true))

theorem IsName.not_mem {s : String} {c : Char} (h : IsName s) (hc : c.isAlpha = false) :
    c ∉ s.toList := fun hmem => by
  rw [List.all_eq_true.1 h c hmem] at hc
  exact nomatch hc

namespace Tag

/-- The tag bears names, so that only its text and the values of its attributes are arbitrary. -/
def IsNamed (t : Tag) : Prop := IsName t.name ∧ ∀ a ∈ t.attributes, IsName a.1

instance (t : Tag) : Decidable t.IsNamed := inferInstanceAs (Decidable (_ ∧ _))

def start (text name : String) (attributes : List (String × String)) : Tag :=
  ⟨text, false, name, attributes⟩

def stop (text name : String) : Tag := ⟨text, true, name, []⟩

/-- The attributes as they are written. -/
def attributeText (attributes : List (String × String)) : String :=
  String.join (attributes.map fun (name, value) => attr name value)

/-- The tag without the text in front of it and the delimiters around it. -/
def inner (t : Tag) : String :=
  (if t.closes then "/" else "") ++ t.name ++ attributeText t.attributes

/-- The tag as it is written. -/
def write (t : Tag) : String := escape t.text ++ "<" ++ t.inner ++ ">"

end Tag

/-! ### Reading tags -/

/-- The name of an attribute, in front of its value. -/
def readKey : List Char → Option String
  | ' ' :: key => if key.getLast? = some '=' then some (.ofList key.dropLast) else none
  | _ => none

/-- The attributes, from the pieces between the quotation marks. -/
def readAttributes : List (List Char) → Option (List (String × String))
  | [[]] => some []
  | key :: value :: pieces => do
    let name ← readKey key
    let attributes ← readAttributes pieces
    some ((name, .ofList (unescape value)) :: attributes)
  | _ => none

/-- Whether what follows `<` is of an end tag, and the rest of it. -/
def splitSlash : List Char → Bool × List Char
  | '/' :: s => (true, s)
  | s => (false, s)

/-- A tag and the text in front of it, without the closing delimiter. -/
def readTag (s : List Char) : Option Tag :=
  match s.splitOn '<' with
  | [text, tag] => do
    let (closes, tag) := splitSlash tag
    let attributes ← readAttributes ((tag.dropWhile (· != ' ')).splitOn '"')
    some ⟨.ofList (unescape text), closes, .ofList (tag.takeWhile (· != ' ')), attributes⟩
  | _ => none

/-- The tags of a document. -/
def readTags (s : String) : Option (List Tag) :=
  let pieces := s.toList.splitOn '>'
  if pieces.getLast? = some [] then pieces.dropLast.mapM readTag else none

section

variable {a : Char} {s : List Char}

theorem splitOn_append_cons (h : a ∉ s) (t : List Char) :
    (s ++ a :: t).splitOn a = s :: t.splitOn a := by
  rw [List.splitOn, List.splitOnP_append_cons _ _ (by simp), List.splitOnP_eq_singleton]
  · rfl
  · exact fun c hc => beq_eq_false_iff_ne.2 fun heq => h (heq ▸ hc)

theorem splitOn_flatMap {α : Type} {f : α → List Char} {l : List α} (h : ∀ x ∈ l, a ∉ f x) :
    (l.flatMap fun x => f x ++ [a]).splitOn a = l.map f ++ [[]] := by
  induction l with
  | nil => exact List.splitOn_nil a
  | cons x l ih =>
    obtain ⟨hx, hl⟩ := List.forall_mem_cons.1 h
    rw [List.flatMap_cons, List.append_assoc, List.singleton_append, splitOn_append_cons hx, ih hl]
    rfl

end

theorem readKey_append (name : String) : readKey (' ' :: (name.toList ++ ['='])) = some name := by
  simp [readKey]

/-- Attributes are written with their values between quotation marks. -/
theorem toList_attributeText_cons (name value : String) (l : List (String × String)) :
    (Tag.attributeText ((name, value) :: l)).toList =
      (' ' :: (name.toList ++ ['='])) ++
        '"' :: ((escape value).toList ++ '"' :: (Tag.attributeText l).toList) := by
  simp [Tag.attributeText, attr]

theorem readAttributes_attributeText {l : List (String × String)} (h : ∀ a ∈ l, IsName a.1) :
    readAttributes ((Tag.attributeText l).toList.splitOn '"') = some l := by
  induction l with
  | nil => rfl
  | cons a l ih =>
    obtain ⟨name, value⟩ := a
    obtain ⟨hname, hl⟩ := List.forall_mem_cons.1 h
    have hkey : '"' ∉ ' ' :: (name.toList ++ ['=']) := by
      simpa using hname.not_mem (c := '"') rfl
    have hvalue : '"' ∉ (escape value).toList := not_mem_escape (by decide) value
    rw [toList_attributeText_cons, splitOn_append_cons hkey, splitOn_append_cons hvalue,
      readAttributes, readKey_append, ih hl, unescape_escape, String.ofList_toList]
    rfl

/-- A name ends where the attributes begin. -/
theorem splitAt_name {name : String} (h : IsName name) (l : List (String × String)) :
    ((name ++ Tag.attributeText l).toList.takeWhile (· != ' ') = name.toList) ∧
      (name ++ Tag.attributeText l).toList.dropWhile (· != ' ') =
        (Tag.attributeText l).toList := by
  have hname : ∀ c ∈ name.toList, (c != ' ') = true := fun c hc =>
    bne_iff_ne.2 fun heq => h.not_mem (c := ' ') rfl (heq ▸ hc)
  have hhead : (Tag.attributeText l).toList.takeWhile (· != ' ') = [] ∧
      (Tag.attributeText l).toList.dropWhile (· != ' ') = (Tag.attributeText l).toList := by
    cases l with
    | nil => exact ⟨rfl, rfl⟩
    | cons a l =>
      rw [toList_attributeText_cons]
      exact ⟨rfl, rfl⟩
  rw [String.toList_append, List.takeWhile_append_of_pos hname, List.dropWhile_append_of_pos hname,
    hhead.1, hhead.2, List.append_nil]
  exact ⟨rfl, rfl⟩

namespace Tag

variable {t : Tag}

theorem splitSlash_inner (h : t.IsNamed) :
    splitSlash t.inner.toList = (t.closes, (t.name ++ attributeText t.attributes).toList) := by
  -- what is written begins with a letter of the name or, if there is none, with a space
  have hhead : ∀ s, (t.name ++ attributeText t.attributes).toList ≠ '/' :: s := by
    intro s heq
    rw [String.toList_append] at heq
    cases hname : t.name.toList with
    | cons c name =>
      rw [hname] at heq
      have hc : c = '/' := (List.cons.inj heq).1
      exact h.1.not_mem (c := '/') rfl (by simp [hname, hc])
    | nil =>
      rw [hname, List.nil_append] at heq
      cases hattributes : t.attributes with
      | nil => exact nomatch (hattributes ▸ heq)
      | cons a l =>
        rw [hattributes, toList_attributeText_cons] at heq
        exact absurd (List.cons.inj heq).1 (by decide)
  rw [inner, String.append_assoc]
  cases t.closes with
  | true => simp [splitSlash]
  | false =>
    rw [if_neg Bool.false_ne_true, String.empty_append, splitSlash]
    exact hhead

/-- No delimiter of tags is left in a tag. -/
theorem not_mem_inner {c : Char} (hc : c ∈ ['<', '>']) (h : t.IsNamed) : c ∉ t.inner.toList := by
  have hother : c ∉ ['/', ' ', '=', '"'] ∧ c.isAlpha = false ∧ c ∈ ['<', '>', '"'] := by
    simp only [List.mem_cons, List.not_mem_nil, or_false] at hc
    rcases hc with rfl | rfl <;> decide
  obtain ⟨hmark, halpha, hdelimiter⟩ := hother
  simp only [List.mem_cons, List.not_mem_nil, or_false, not_or] at hmark
  have hattributes {l : List (String × String)} (hl : ∀ a ∈ l, IsName a.1) :
      c ∉ (attributeText l).toList := by
    induction l with
    | nil => exact List.not_mem_nil
    | cons a l ih =>
      obtain ⟨name, value⟩ := a
      obtain ⟨hname, hl⟩ := List.forall_mem_cons.1 hl
      simp [toList_attributeText_cons, hmark, IsName.not_mem hname halpha,
        not_mem_escape hdelimiter value, ih hl]
  rw [inner, String.toList_append, String.toList_append]
  cases t.closes <;> simp [hmark, h.1.not_mem halpha, hattributes h.2]

theorem readTag_write (h : t.IsNamed) :
    readTag ((escape t.text).toList ++ '<' :: t.inner.toList) = some t := by
  obtain ⟨hname, hattributes⟩ := splitAt_name h.1 t.attributes
  rw [readTag, splitOn_append_cons (not_mem_escape (by decide) _),
    List.splitOn_eq_singleton (not_mem_inner (by decide) h)]
  simp only [splitSlash_inner h, hname, hattributes, readAttributes_attributeText h.2,
    unescape_escape, String.ofList_toList]
  rfl

end Tag

/-- A document of tags. -/
def write (tags : List Tag) : String := String.join (tags.map Tag.write)

/-- A document gives its tags back. -/
theorem readTags_write {tags : List Tag} (h : ∀ t ∈ tags, t.IsNamed) :
    readTags (write tags) = some tags := by
  have hmem : ∀ t ∈ tags, '>' ∉ (escape t.text).toList ++ '<' :: t.inner.toList := by
    intro t ht
    simp [not_mem_escape (c := '>') (by decide), t.not_mem_inner (c := '>') (by decide) (h t ht)]
  have hpieces : (write tags).toList.splitOn '>' =
      (tags.map fun t => (escape t.text).toList ++ '<' :: t.inner.toList) ++ [[]] := by
    rw [← splitOn_flatMap hmem]
    simp [write, Tag.write, List.flatMap_map]
  rw [readTags, hpieces, List.getLast?_concat, if_pos rfl, List.dropLast_concat, List.mapM_map]
  clear hmem hpieces
  induction tags with
  | nil => rfl
  | cons t tags ih =>
    obtain ⟨ht, htags⟩ := List.forall_mem_cons.1 h
    rw [List.mapM_cons, Function.comp_apply, t.readTag_write ht, ih htags]
    rfl

/-! ### Elements -/

/-- An element of a document. -/
structure Element where
  name : String
  attributes : List (String × String)
  /-- The elements within it. -/
  content : List Element
  /-- The text in front of its end tag. -/
  text : String

/-- An element whose end tag has not been read yet. -/
structure OpenElement where
  name : String
  attributes : List (String × String)
  /-- The elements in front of it, within the same element. -/
  before : List Element

/-- The elements that nested tags stand for, from the elements that are open, innermost first, and
those that have been read in the innermost one. Text in front of a start tag is layout. -/
def readElements : List Tag → List OpenElement → List Element → Option (List Element)
  | [], [], read => some read
  | [], _ :: _, _ => none
  | t :: tags, pending, read =>
    if t.closes then
      match pending with
      | e :: pending =>
        if e.name = t.name then
          readElements tags pending (e.before ++ [⟨e.name, e.attributes, read, t.text⟩])
        else none
      | [] => none
    else readElements tags (⟨t.name, t.attributes, read⟩ :: pending) []

/-- The elements of a document. -/
def elements? (s : String) : Option (List Element) := do
  readElements (← readTags s) [] []

/-- A start tag, the tags of the content and an end tag with its text in front. -/
def enclose (layout name : String) (attributes : List (String × String)) (content : List Tag)
    (text : String) : List Tag :=
  .start layout name attributes :: (content ++ [.stop text name])

/-- The tags are read as the elements, wherever they come. -/
structure Spells (tags : List Tag) (elements : List Element) : Prop where
  named : ∀ t ∈ tags, t.IsNamed
  reads : ∀ rest pending read,
    readElements (tags ++ rest) pending read = readElements rest pending (read ++ elements)

namespace Spells

variable {tags tags' : List Tag} {elements elements' : List Element}

theorem nil : Spells [] [] where
  named := nofun
  reads _ _ read := by rw [List.nil_append, List.append_nil]

theorem append (h : Spells tags elements) (h' : Spells tags' elements') :
    Spells (tags ++ tags') (elements ++ elements') where
  named t ht := (List.mem_append.1 ht).elim (h.named t) (h'.named t)
  reads rest pending read := by rw [List.append_assoc, h.reads, h'.reads, List.append_assoc]

theorem flatMap {α : Type} {f : α → List Tag} {g : α → Element} (h : ∀ a, Spells (f a) [g a])
    (l : List α) : Spells (l.flatMap f) (l.map g) := by
  induction l with
  | nil => exact nil
  | cons a l ih => exact (h a).append ih

theorem enclose {name : String} {attributes : List (String × String)} (h : Spells tags elements)
    (hname : IsName name) (hattributes : ∀ a ∈ attributes, IsName a.1) (layout text : String) :
    Spells (enclose layout name attributes tags text) [⟨name, attributes, elements, text⟩] where
  named := by
    rw [Toolbox.enclose, List.forall_mem_cons, List.forall_mem_append, List.forall_mem_singleton]
    exact ⟨⟨hname, hattributes⟩, h.named, hname, nofun⟩
  reads rest pending read := by
    have hstart (tags : List Tag) :
        readElements (.start layout name attributes :: tags) pending read =
          readElements tags (⟨name, attributes, read⟩ :: pending) [] := rfl
    have hstop : readElements (.stop text name :: rest) (⟨name, attributes, read⟩ :: pending)
        elements = readElements rest pending (read ++ [⟨name, attributes, elements, text⟩]) := by
      simp [readElements, Tag.stop]
    rw [Toolbox.enclose, List.cons_append, hstart, List.append_assoc, h.reads, List.nil_append,
      List.singleton_append, hstop]

/-- A document gives the elements back that its tags spell. -/
theorem elements?_write (h : Spells tags elements) : elements? (write tags) = some elements := by
  have hreads : readElements (tags ++ []) [] [] = some elements := h.reads [] [] []
  rw [List.append_nil] at hreads
  rw [elements?, readTags_write h.named]
  exact hreads

end Spells

/-! ### Writing elements -/

theorem escape_eq_self {s : String} (h : ∀ c ∈ s.toList, c ∉ reserved) : escape s = s := by
  have hself : s.toList.flatMap escapeChar = s.toList.flatMap fun c => [c] :=
    List.flatMap_congr fun c hc => escapeChar_of_not_mem (h c hc)
  rw [escape, hself, List.flatMap_singleton', String.ofList_toList]

theorem write_append (tags tags' : List Tag) : write (tags ++ tags') = write tags ++ write tags' := by
  rw [write, List.map_append, String.join_append]
  rfl

theorem write_flatMap {α : Type} (f : α → List Tag) (l : List α) :
    write (l.flatMap f) = String.join (l.map fun a => write (f a)) := by
  induction l with
  | nil => rfl
  | cons a l ih => rw [List.flatMap_cons, write_append, ih, List.map_cons, String.join_cons]

theorem write_enclose {layout : String} (hlayout : ∀ c ∈ layout.toList, c ∉ reserved)
    (name : String) (attributes : List (String × String)) (content : List Tag) (text : String) :
    write (enclose layout name attributes content text) =
      layout ++ "<" ++ name ++ Tag.attributeText attributes ++ ">" ++ write content ++ escape text ++
        "</" ++ name ++ ">" := by
  have hstart : (Tag.start layout name attributes).write =
      layout ++ "<" ++ name ++ Tag.attributeText attributes ++ ">" := by
    simp [Tag.write, Tag.inner, Tag.start, escape_eq_self hlayout, String.append_assoc]
  have hstop : (Tag.stop text name).write = escape text ++ "</" ++ name ++ ">" := by
    rw [← String.toList_inj]
    simp [Tag.write, Tag.inner, Tag.stop, Tag.attributeText]
  have hsingle : write [.stop text name] = (Tag.stop text name).write := by simp [write]
  rw [enclose, write, List.map_cons, String.join_cons, hstart, ← write, write_append, hsingle,
    hstop]
  simp only [String.append_assoc]

end Toolbox

end ScriptBlocks
