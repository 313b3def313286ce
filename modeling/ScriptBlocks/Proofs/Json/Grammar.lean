import ScriptBlocks.Proofs.Json.Number

/-!
# The grammar of documents

Which texts stand for a document. White space may stand between any two parts of it, and the scalars
may be written in several ways. The reader gives a document back from each of its texts, whatever
the strings and numbers in it are.

## Main definitions

* `Json.Derives` — `s` is a text of the document `j`
* `Json.HasText` — the same with white space around it

## Main statements

* `Json.readValue_of_derives` — the reader takes just the text of a document
* `Json.parse_of_hasText` — a document is read back from each of its texts
-/

namespace ScriptBlocks.Json

/-- Nothing but white space. -/
def Blanks (s : List Char) : Prop := ∀ c ∈ s, isBlank c = true

mutual

/-- `Derives j s`: the text `s` stands for the document `j`. -/
inductive Derives : Json → List Char → Prop where
  | null : Derives null ['n', 'u', 'l', 'l']
  | bool_true : Derives (bool true) ['t', 'r', 'u', 'e']
  | bool_false : Derives (bool false) ['f', 'a', 'l', 's', 'e']
  | number {n : Number} {s : List Char} : DerivesNumber n s → Derives (number n) s
  | string {raw : List Char} : IsQuoted raw → Derives (string raw) ('"' :: (raw ++ ['"']))
  | emptyArray {b : List Char} : Blanks b → Derives (array []) ('[' :: (b ++ [']']))
  | array {items : List Json} {s : List Char} :
    DerivesItems items s → Derives (array items) ('[' :: s)
  | emptyObject {b : List Char} : Blanks b → Derives (object []) ('\x7b' :: (b ++ ['\x7d']))
  | object {members : List (List Char × Json)} {s : List Char} :
    DerivesMembers members s → Derives (object members) ('\x7b' :: s)

/-- The text of the items of an array, closing bracket included. -/
inductive DerivesItems : List Json → List Char → Prop where
  | last {j : Json} {b s b' : List Char} : Blanks b → Derives j s → Blanks b' →
    DerivesItems [j] (b ++ (s ++ (b' ++ [']'])))
  | cons {j : Json} {items : List Json} {b s b' t : List Char} : Blanks b → Derives j s →
    Blanks b' → DerivesItems items t → DerivesItems (j :: items) (b ++ (s ++ (b' ++ ',' :: t)))

/-- The text of a member of an object. -/
inductive DerivesMember : List Char × Json → List Char → Prop where
  | mk {j : Json} {key b b' s : List Char} : IsQuoted key → Blanks b → Blanks b' → Derives j s →
    DerivesMember (key, j) ('"' :: (key ++ '"' :: (b ++ ':' :: (b' ++ s))))

/-- The text of the members of an object, closing brace included. -/
inductive DerivesMembers : List (List Char × Json) → List Char → Prop where
  | last {m : List Char × Json} {b s b' : List Char} : Blanks b → DerivesMember m s → Blanks b' →
    DerivesMembers [m] (b ++ (s ++ (b' ++ ['\x7d'])))
  | cons {m : List Char × Json} {members : List (List Char × Json)} {b s b' t : List Char} :
    Blanks b → DerivesMember m s → Blanks b' → DerivesMembers members t →
      DerivesMembers (m :: members) (b ++ (s ++ (b' ++ ',' :: t)))

end

/-- The text is one of the document, with white space around it. -/
def HasText (j : Json) (text : String) : Prop :=
  ∃ b s b', Blanks b ∧ Derives j s ∧ Blanks b' ∧ text.toList = b ++ (s ++ b')

variable {j : Json} {b s t rest : List Char} {c : Char}

/-! ### White space -/

theorem blanks_nil : Blanks [] := fun _ hc => nomatch hc

theorem skipBlanks_append (hb : Blanks b) (s : List Char) : skipBlanks (b ++ s) = skipBlanks s :=
  List.dropWhile_append_of_pos hb

theorem skipBlanks_cons (hc : isBlank c = false) (s : List Char) :
    skipBlanks (c :: s) = c :: s := by
  rw [skipBlanks, List.dropWhile_cons, hc]
  rfl

theorem skipBlanks_append_cons (hb : Blanks b) (hc : isBlank c = false) (s : List Char) :
    skipBlanks (b ++ c :: s) = c :: s := by
  rw [skipBlanks_append hb, skipBlanks_cons hc]

/-- White space is no part of a number. -/
theorem endsNumber_append (hb : Blanks b) (hrest : EndsNumber rest) : EndsNumber (b ++ rest) := by
  cases b with
  | nil => exact hrest
  | cons d b =>
    intro c hc
    obtain rfl := Option.some.inj hc
    have hblank : d = ' ' ∨ d = '\n' ∨ d = '\t' ∨ d = '\r' := by
      simpa [isBlank, or_assoc] using hb d List.mem_cons_self
    rcases hblank with rfl | rfl | rfl | rfl <;> decide

/-- Nor is punctuation. -/
theorem endsNumber_append_cons (hb : Blanks b) (hc : c = ']' ∨ c = '\x7d' ∨ c = ',')
    (s : List Char) : EndsNumber (b ++ c :: s) := by
  refine endsNumber_append hb fun d hd => ?_
  obtain rfl := Option.some.inj hd
  rcases hc with rfl | rfl | rfl <;> decide

/-! ### Reading -/

theorem ne_of_minus_or_isDigit {d : Char} (hc : c = '-' ∨ c.isDigit = true)
    (hd : ¬(d = '-' ∨ d.isDigit = true)) : c ≠ d := by
  rintro rfl
  exact hd hc

/-- No text of a document begins with white space or a closing bracket. -/
theorem Derives.exists_eq_cons (h : Derives j s) :
    ∃ c u, s = c :: u ∧ isBlank c = false ∧ c ≠ ']' := by
  cases h with
  | number hn =>
    obtain ⟨c, u, rfl, hc⟩ := hn.exists_eq_cons
    have hne {d : Char} (hd : ¬(d = '-' ∨ d.isDigit = true)) : c ≠ d := ne_of_minus_or_isDigit hc hd
    refine ⟨c, u, rfl, ?_, hne (by decide)⟩
    simp only [isBlank, Bool.or_eq_false_iff, decide_eq_false_iff_not]
    exact ⟨⟨⟨hne (by decide), hne (by decide)⟩, hne (by decide)⟩, hne (by decide)⟩
  | _ => exact ⟨_, _, rfl, by decide, by decide⟩

theorem Derives.skipBlanks_append (h : Derives j s) (rest : List Char) :
    skipBlanks (s ++ rest) = s ++ rest := by
  obtain ⟨c, u, rfl, hc, -⟩ := h.exists_eq_cons
  exact skipBlanks_cons hc _

theorem DerivesItems.exists_eq_cons {items : List Json} (h : DerivesItems items s) :
    ∃ c u, skipBlanks (s ++ rest) = c :: u ∧ c ≠ ']' := by
  cases h with
  | last hb hj | cons hb hj =>
    obtain ⟨c, u, rfl, hblank, hc⟩ := hj.exists_eq_cons
    rw [List.append_assoc, Json.skipBlanks_append hb, List.append_assoc, List.cons_append,
      skipBlanks_cons hblank]
    exact ⟨c, _, rfl, hc⟩

theorem DerivesMembers.exists_eq_cons {members : List (List Char × Json)}
    (h : DerivesMembers members s) : ∃ c u, skipBlanks (s ++ rest) = c :: u ∧ c ≠ '\x7d' := by
  cases h with
  | last hb hm | cons hb hm =>
    cases hm
    rw [List.append_assoc, Json.skipBlanks_append hb, List.append_assoc, List.cons_append,
      skipBlanks_cons (by decide)]
    exact ⟨'"', _, rfl, by decide⟩

theorem readValue_eq_readScalar {fuel : Nat} (hc : c ≠ '[' ∧ c ≠ '\x7b') (s : List Char) :
    readValue (fuel + 1) (c :: s) = readScalar (c :: s) := by
  rw [readValue]
  · exact fun _ h => hc.1 (List.cons.inj h).1
  · exact fun _ h => hc.2 (List.cons.inj h).1

/-- An array is read as its items are, when there are any. -/
theorem readValue_bracket {fuel : Nat} (h : ∃ c u, skipBlanks s = c :: u ∧ c ≠ ']') :
    readValue (fuel + 1) ('[' :: s) =
      (readItems fuel (skipBlanks s)).map fun (items, rest) => (array items, rest) := by
  obtain ⟨c, u, h, hc⟩ := h
  rw [readValue, h]
  split
  · next heq => exact absurd (List.cons.inj heq).1 hc
  · rfl

theorem readValue_brace {fuel : Nat} (h : ∃ c u, skipBlanks s = c :: u ∧ c ≠ '\x7d') :
    readValue (fuel + 1) ('\x7b' :: s) =
      (readMembers fuel (skipBlanks s)).map fun (members, rest) => (object members, rest) := by
  obtain ⟨c, u, h, hc⟩ := h
  rw [readValue, h]
  split
  · next heq => exact absurd (List.cons.inj heq).1 hc
  · rfl

/-! Once its parts are read, the items of an array and the members of an object are. -/

section steps

variable {fuel : Nat} {items : List Json} {members : List (List Char × Json)}
  {key u v t' : List Char}

theorem readItems_last (hj : readValue fuel s = some (j, u)) (hu : skipBlanks u = ']' :: rest) :
    readItems (fuel + 1) s = some ([j], rest) := by
  rw [readItems, hj]
  simp only [Option.bind_eq_bind, Option.bind_some, hu]
  rfl

theorem readItems_cons (hj : readValue fuel s = some (j, u)) (hu : skipBlanks u = ',' :: t)
    (ht : readItems fuel (skipBlanks t) = some (items, rest)) :
    readItems (fuel + 1) s = some (j :: items, rest) := by
  rw [readItems, hj]
  simp only [Option.bind_eq_bind, Option.bind_some, hu, ht]
  rfl

theorem readMembers_last (hkey : readRaw s = some (key, u)) (hu : skipBlanks u = ':' :: v)
    (hj : readValue fuel (skipBlanks v) = some (j, t)) (ht : skipBlanks t = '\x7d' :: rest) :
    readMembers (fuel + 1) ('"' :: s) = some ([(key, j)], rest) := by
  rw [readMembers]
  simp only [Option.bind_eq_bind, Option.bind_some, hkey, hu, hj, ht]
  rfl

theorem readMembers_cons (hkey : readRaw s = some (key, u)) (hu : skipBlanks u = ':' :: v)
    (hj : readValue fuel (skipBlanks v) = some (j, t)) (ht : skipBlanks t = ',' :: t')
    (hmembers : readMembers fuel (skipBlanks t') = some (members, rest)) :
    readMembers (fuel + 1) ('"' :: s) = some ((key, j) :: members, rest) := by
  rw [readMembers]
  simp only [Option.bind_eq_bind, Option.bind_some, hkey, hu, hj, ht, hmembers]
  rfl

end steps

mutual

/-- The reader takes just the text of a document off a longer text. Each level of nesting costs two
steps, and has two brackets to pay for them. -/
theorem readValue_of_derives : ∀ (fuel : Nat) {j : Json} {s rest : List Char}, Derives j s →
    s.length ≤ fuel → EndsNumber rest → readValue fuel (s ++ rest) = some (j, rest)
  | 0, _, _, _, h, hfuel, _ => by
    obtain ⟨c, u, rfl, -⟩ := h.exists_eq_cons
    exact absurd hfuel (Nat.not_succ_le_zero _)
  | fuel + 1, _, _, rest, h, hfuel, hrest => by
    cases h with
    | null | bool_true | bool_false => exact readValue_eq_readScalar (by decide) _
    | number hn =>
      have hread := readScalar_of_derives hn hrest
      obtain ⟨c, u, rfl, hc⟩ := hn.exists_eq_cons
      rw [List.cons_append] at hread ⊢
      rw [readValue_eq_readScalar ⟨ne_of_minus_or_isDigit hc (by decide),
        ne_of_minus_or_isDigit hc (by decide)⟩, hread]
    | string hraw =>
      rw [List.cons_append, readValue_eq_readScalar (by decide), List.append_assoc]
      simp only [readScalar, List.singleton_append, readRaw_of_isQuoted hraw, Option.map_some]
    | emptyArray hb =>
      rw [List.cons_append, List.append_assoc, readValue, List.singleton_append,
        skipBlanks_append_cons hb (by decide)]
      rfl
    | array h =>
      have hitems := readItems_of_derives fuel h (Nat.le_of_succ_le_succ hfuel) rest
      rw [List.cons_append, readValue_bracket h.exists_eq_cons, hitems, Option.map_some]
    | emptyObject hb =>
      rw [List.cons_append, List.append_assoc, readValue, List.singleton_append,
        skipBlanks_append_cons hb (by decide)]
      rfl
    | object h =>
      have hmembers := readMembers_of_derives fuel h (Nat.le_of_succ_le_succ hfuel) rest
      rw [List.cons_append, readValue_brace h.exists_eq_cons, hmembers, Option.map_some]

theorem readItems_of_derives : ∀ (fuel : Nat) {items : List Json} {s : List Char},
    DerivesItems items s → s.length ≤ fuel → ∀ rest : List Char,
      readItems fuel (skipBlanks (s ++ rest)) = some (items, rest)
  -- there is at least the closing bracket
  | 0, _, _, h, hfuel, _ => by
    cases h <;> simp at hfuel
  | fuel + 1, _, _, h, hfuel, rest => by
    cases h with
    | last hb h hb' =>
      simp only [List.length_append, List.length_cons] at hfuel
      -- the item may be a number, which what stands behind it must not prolong
      have hj := readValue_of_derives fuel h (by omega)
        (endsNumber_append_cons hb' (.inl rfl) rest)
      simp only [List.append_assoc, List.singleton_append]
      rw [skipBlanks_append hb, h.skipBlanks_append]
      exact readItems_last hj (skipBlanks_append_cons hb' (by decide) rest)
    | @cons j items b s b' t hb h hb' ht =>
      simp only [List.length_append, List.length_cons] at hfuel
      have hj := readValue_of_derives fuel h (by omega)
        (endsNumber_append_cons hb' (.inr (.inr rfl)) (t ++ rest))
      have hrest := readItems_of_derives fuel ht (by omega) rest
      simp only [List.append_assoc, List.cons_append]
      rw [skipBlanks_append hb, h.skipBlanks_append]
      exact readItems_cons hj (skipBlanks_append_cons hb' (by decide) _) hrest

theorem readMembers_of_derives : ∀ (fuel : Nat) {members : List (List Char × Json)}
    {s : List Char}, DerivesMembers members s → s.length ≤ fuel → ∀ rest : List Char,
      readMembers fuel (skipBlanks (s ++ rest)) = some (members, rest)
  | 0, _, _, h, hfuel, _ => by
    cases h <;> simp at hfuel
  | fuel + 1, _, _, h, hfuel, rest => by
    cases h with
    | last hb hm hb' =>
      obtain ⟨hkey, hcolon, hvalue, h⟩ := hm
      simp only [List.length_append, List.length_cons] at hfuel
      have hj := readValue_of_derives fuel h (by omega)
        (endsNumber_append_cons hb' (.inr (.inl rfl)) rest)
      simp only [List.append_assoc, List.cons_append, List.nil_append]
      rw [skipBlanks_append hb, skipBlanks_cons (by decide)]
      refine readMembers_last (readRaw_of_isQuoted hkey _)
        (skipBlanks_append_cons hcolon (by decide) _) ?_
        (skipBlanks_append_cons hb' (by decide) rest)
      rw [skipBlanks_append hvalue, h.skipBlanks_append, hj]
    | @cons _ _ _ _ _ t hb hm hb' ht =>
      obtain ⟨hkey, hcolon, hvalue, h⟩ := hm
      simp only [List.length_append, List.length_cons] at hfuel
      have hj := readValue_of_derives fuel h (by omega)
        (endsNumber_append_cons hb' (.inr (.inr rfl)) (t ++ rest))
      have hrest := readMembers_of_derives fuel ht (by omega) rest
      simp only [List.append_assoc, List.cons_append]
      rw [skipBlanks_append hb, skipBlanks_cons (by decide)]
      refine readMembers_cons (readRaw_of_isQuoted hkey _)
        (skipBlanks_append_cons hcolon (by decide) _) ?_
        (skipBlanks_append_cons hb' (by decide) _) hrest
      rw [skipBlanks_append hvalue, h.skipBlanks_append, hj]

end

/-- A document is read back from each of its texts. -/
theorem parse_of_hasText {text : String} (h : HasText j text) : parse text = some j := by
  obtain ⟨b, s, b', hb, hs, hb', htext⟩ := h
  have hskip : skipBlanks text.toList = s ++ b' := by
    rw [htext, skipBlanks_append hb, hs.skipBlanks_append]
  have hlength : s.length ≤ 2 * text.toList.length + 2 := by
    rw [htext, List.length_append, List.length_append]
    omega
  have hend : EndsNumber (b' ++ []) := endsNumber_append hb' fun _ hc => nomatch hc
  have hblank : skipBlanks (b' ++ []) = [] := skipBlanks_append hb' []
  rw [List.append_nil] at hend hblank
  rw [parse, parseChars, hskip, readValue_of_derives _ hs hlength hend]
  exact if_pos hblank

end ScriptBlocks.Json
