import ScriptBlocks.Proofs.Json.Grammar

/-!
# The texts of a document

One document has many texts: white space may stand between any two of its parts. Whatever the
layout, the reader gives the document back; the layout that the writer chooses is one of them. What
a document must not contain for this are strings and keys that no text is written as, and numbers
with something else than digits behind the point.

## Main definitions

* `Json.Proper` — the documents that can be written down
* `Json.Spells` — `s` is a text of the document `j`

## Main statements

* `Json.Spells.derives` — such a text stands for the document
* `Json.parse_of_spells` — a document is read back from each of its texts
* `Json.spells_pretty` — the indented text is a text of the document
-/

namespace ScriptBlocks.Json

/-- A document with digits behind the points of its numbers, and with strings and keys that are the
written forms of texts. -/
inductive Proper : Json → Prop where
  | null : Proper null
  | bool (b : Bool) : Proper (bool b)
  | number {n : Number} : n.Proper → Proper (number n)
  | string (s : List Char) : Proper (string (escape s))
  | array {items : List Json} : (∀ j ∈ items, Proper j) → Proper (array items)
  | object {members : List (List Char × Json)} : (∀ m ∈ members, ∃ s, m.1 = escape s) →
    (∀ m ∈ members, Proper m.2) → Proper (object members)

theorem Proper.of_number {n : Number} (h : (Json.number n).Proper) : n.Proper := by
  cases h with
  | number hn => exact hn

theorem Proper.of_array {items : List Json} (h : (Json.array items).Proper) :
    ∀ j ∈ items, j.Proper := by
  cases h with
  | array hitems => exact hitems

theorem Proper.of_object {members : List (List Char × Json)} (h : (Json.object members).Proper) :
    (∀ m ∈ members, ∃ s, m.1 = escape s) ∧ ∀ m ∈ members, m.2.Proper := by
  cases h with
  | object hkeys hmembers => exact ⟨hkeys, hmembers⟩

mutual

/-- `Spells j s`: the text `s` is the document `j`, with white space anywhere between its parts. -/
inductive Spells : Json → List Char → Prop where
  | null : Spells null ['n', 'u', 'l', 'l']
  | bool_true : Spells (bool true) ['t', 'r', 'u', 'e']
  | bool_false : Spells (bool false) ['f', 'a', 'l', 's', 'e']
  | number (n : Number) : Spells (number n) n.chars
  | string (raw : List Char) : Spells (string raw) ('"' :: (raw ++ ['"']))
  | emptyArray {b : List Char} : Blanks b → Spells (array []) ('[' :: (b ++ [']']))
  | array {items : List Json} {s : List Char} :
    SpellsItems items s → Spells (array items) ('[' :: s)
  | emptyObject {b : List Char} : Blanks b → Spells (object []) ('\x7b' :: (b ++ ['\x7d']))
  | object {members : List (List Char × Json)} {s : List Char} :
    SpellsMembers members s → Spells (object members) ('\x7b' :: s)

/-- The text of the items of an array, closing bracket included. -/
inductive SpellsItems : List Json → List Char → Prop where
  | last {j : Json} {b s b' : List Char} : Blanks b → Spells j s → Blanks b' →
    SpellsItems [j] (b ++ (s ++ (b' ++ [']'])))
  | cons {j : Json} {items : List Json} {b s b' t : List Char} : Blanks b → Spells j s → Blanks b' →
    SpellsItems items t → SpellsItems (j :: items) (b ++ (s ++ (b' ++ ',' :: t)))

/-- The text of a member of an object. -/
inductive SpellsMember : List Char × Json → List Char → Prop where
  | mk {j : Json} {key b b' s : List Char} : Blanks b → Blanks b' → Spells j s →
    SpellsMember (key, j) ('"' :: (key ++ '"' :: (b ++ ':' :: (b' ++ s))))

/-- The text of the members of an object, closing brace included. -/
inductive SpellsMembers : List (List Char × Json) → List Char → Prop where
  | last {m : List Char × Json} {b s b' : List Char} : Blanks b → SpellsMember m s → Blanks b' →
    SpellsMembers [m] (b ++ (s ++ (b' ++ ['\x7d'])))
  | cons {m : List Char × Json} {members : List (List Char × Json)} {b s b' t : List Char} :
    Blanks b → SpellsMember m s → Blanks b' → SpellsMembers members t →
      SpellsMembers (m :: members) (b ++ (s ++ (b' ++ ',' :: t)))

end

variable {j : Json} {s : List Char}

mutual

/-- A text of a document that can be written down stands for the document. -/
theorem Spells.derives : ∀ {j : Json} {s : List Char}, Spells j s → j.Proper → Derives j s
  | _, _, .null, _ => .null
  | _, _, .bool_true, _ => .bool_true
  | _, _, .bool_false, _ => .bool_false
  | _, _, .number _, hj => .number (derivesNumber_chars hj.of_number)
  | _, _, .string _, .string s => .string (isQuoted_escape s)
  | _, _, .emptyArray hb, _ => .emptyArray hb
  | _, _, .array h, hj => .array (h.derives hj.of_array)
  | _, _, .emptyObject hb, _ => .emptyObject hb
  | _, _, .object h, hj => .object (h.derives hj.of_object.1 hj.of_object.2)

theorem SpellsItems.derives : ∀ {items : List Json} {s : List Char}, SpellsItems items s →
    (∀ j ∈ items, j.Proper) → DerivesItems items s
  | _, _, .last hb h hb', hitems => .last hb (h.derives (hitems _ List.mem_cons_self)) hb'
  | _, _, .cons hb h hb' ht, hitems =>
    .cons hb (h.derives (hitems _ List.mem_cons_self)) hb'
      (ht.derives fun j hj => hitems j (List.mem_cons_of_mem _ hj))

theorem SpellsMember.derives : ∀ {m : List Char × Json} {s : List Char}, SpellsMember m s →
    (∃ s, m.1 = escape s) → m.2.Proper → DerivesMember m s
  | _, _, .mk hb hb' h, hkey, hj => by
    obtain ⟨key, rfl⟩ := hkey
    exact .mk (isQuoted_escape key) hb hb' (h.derives hj)

theorem SpellsMembers.derives : ∀ {members : List (List Char × Json)} {s : List Char},
    SpellsMembers members s → (∀ m ∈ members, ∃ s, m.1 = escape s) →
      (∀ m ∈ members, m.2.Proper) → DerivesMembers members s
  | _, _, .last hb h hb', hkeys, hmembers =>
    .last hb (h.derives (hkeys _ List.mem_cons_self) (hmembers _ List.mem_cons_self)) hb'
  | _, _, .cons hb h hb' ht, hkeys, hmembers =>
    .cons hb (h.derives (hkeys _ List.mem_cons_self) (hmembers _ List.mem_cons_self)) hb'
      (ht.derives (fun m hm => hkeys m (List.mem_cons_of_mem _ hm))
        fun m hm => hmembers m (List.mem_cons_of_mem _ hm))

end

theorem Spells.hasText {text : String} (h : Spells j text.toList) (hj : j.Proper) :
    j.HasText text :=
  ⟨[], _, [], blanks_nil, h.derives hj, blanks_nil, (List.append_nil _).symm⟩

/-- A document is read back from each of its texts. -/
theorem parse_of_spells {text : String} (h : Spells j text.toList) (hj : j.Proper) :
    parse text = some j :=
  parse_of_hasText (h.hasText hj)

/-! ### Writing -/

theorem blanks_space : Blanks [' '] := by
  intro c hc
  rw [List.mem_singleton.1 hc]
  decide

theorem blanks_newline (level : Nat) : Blanks (newline level) := by
  intro c hc
  rcases List.mem_cons.1 hc with rfl | hc
  · decide
  · rw [(List.mem_replicate.1 hc).2]
    decide

/-- A member as the writer puts it: one space behind the colon. -/
theorem spellsMember_pretty (key : List Char) (h : Spells j s) :
    SpellsMember (key, j) ('"' :: (key ++ '"' :: ':' :: ' ' :: s)) :=
  .mk blanks_nil blanks_space h

mutual

/-- The writer puts white space between the parts of a document only. -/
theorem spells_prettyAt : ∀ (level : Nat) (j : Json), Spells j (prettyAt level j)
  | _, null => .null
  | _, bool true => .bool_true
  | _, bool false => .bool_false
  | _, number n => .number n
  | _, string raw => .string raw
  | _, array [] => .emptyArray blanks_nil
  | level, array (item :: items) => by
    have h := spellsItems_pretty level (level + 1) (spells_prettyAt (level + 1) item) items
    simpa only [prettyAt, List.cons_append, List.append_assoc] using Spells.array h
  | _, object [] => .emptyObject blanks_nil
  | level, object ((key, value) :: members) => by
    have hm := spellsMember_pretty key (spells_prettyAt (level + 1) value)
    have h := spellsMembers_pretty level (level + 1) hm members
    simpa only [prettyAt, List.cons_append, List.append_assoc, List.nil_append] using
      Spells.object h

theorem spellsItems_pretty (outer level : Nat) {item : Json} {s : List Char} (h : Spells item s) :
    ∀ items : List Json, SpellsItems (item :: items)
      (newline level ++ (s ++ (prettyItems level items ++ (newline outer ++ [']']))))
  | [] => .last (blanks_newline level) h (blanks_newline outer)
  | next :: items => by
    have hnext := spellsItems_pretty outer level (spells_prettyAt level next) items
    simpa only [prettyItems, List.cons_append, List.append_assoc, List.nil_append] using
      SpellsItems.cons (blanks_newline level) h blanks_nil hnext

theorem spellsMembers_pretty (outer level : Nat) {m : List Char × Json} {s : List Char}
    (h : SpellsMember m s) : ∀ members : List (List Char × Json), SpellsMembers (m :: members)
      (newline level ++ (s ++ (prettyMembers level members ++ (newline outer ++ ['\x7d']))))
  | [] => .last (blanks_newline level) h (blanks_newline outer)
  | (key, value) :: members => by
    have hm := spellsMember_pretty key (spells_prettyAt level value)
    have hnext := spellsMembers_pretty outer level hm members
    simpa only [prettyMembers, List.cons_append, List.append_assoc, List.nil_append] using
      SpellsMembers.cons (blanks_newline level) h blanks_nil hnext

end

/-- The indented text is a text of the document. -/
theorem spells_pretty (j : Json) : Spells j j.pretty.toList := by
  rw [pretty, String.toList_ofList]
  exact spells_prettyAt 0 j

end ScriptBlocks.Json
