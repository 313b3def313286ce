import ScriptBlocks.Proofs.Json.Grammar

/-!
# What the reader accepts

The reader accepts nothing but the texts of documents: what it takes off the front of a text is a
text of the document that it gives. So the grammar says exactly which texts are read, and as what.

## Main statements

* `Json.exists_derives_of_readValue` — what is taken off a text for a value
* `Json.parse_eq_some_iff` — a text is read as a document if and only if it is a text of it
-/

namespace ScriptBlocks.Json

variable {s rest ds raw : List Char} {j : Json}

/-! ### Scalars -/

/-- What is skipped is white space. -/
theorem exists_blanks (s : List Char) : ∃ b, Blanks b ∧ s = b ++ skipBlanks s :=
  ⟨s.takeWhile isBlank, fun _ hc => List.mem_takeWhile_imp hc,
    List.takeWhile_append_dropWhile.symm⟩

theorem isQuoted_of_readRaw (h : readRaw s = some (raw, rest)) :
    IsQuoted raw ∧ s = raw ++ '"' :: rest := by
  fun_induction readRaw s generalizing raw rest with
  | case1 => exact nomatch h
  | case2 s =>
    obtain ⟨rfl, rfl⟩ := Prod.mk.inj (Option.some.inj h)
    exact ⟨.nil, rfl⟩
  | case3 a b c d s ih =>
    simp only [Option.bind_eq_bind, Option.bind_eq_some_iff] at h
    obtain ⟨unit, hunit, ⟨raw, rest⟩, hraw, heq⟩ := h
    obtain ⟨rfl, rfl⟩ := Prod.mk.inj (Option.some.inj heq)
    obtain ⟨hquoted, rfl⟩ := ih hraw
    exact ⟨.code (Option.isSome_iff_exists.2 ⟨unit, hunit⟩) hquoted, rfl⟩
  | case4 c s hu ih =>
    simp only [Option.bind_eq_bind, Option.bind_eq_some_iff] at h
    obtain ⟨plain, hplain, ⟨raw, rest⟩, hraw, heq⟩ := h
    obtain ⟨rfl, rfl⟩ := Prod.mk.inj (Option.some.inj heq)
    obtain ⟨hquoted, rfl⟩ := ih hraw
    exact ⟨.letter (Option.isSome_iff_exists.2 ⟨plain, hplain⟩) hquoted, rfl⟩
  | case5 => exact nomatch h
  | case6 c s hquote _ _ _ hguard =>
    rename_i ih
    obtain ⟨⟨raw, rest⟩, hraw, heq⟩ := Option.bind_eq_some_iff.1 h
    obtain ⟨rfl, rfl⟩ := Prod.mk.inj (Option.some.inj heq)
    obtain ⟨hquoted, rfl⟩ := ih hraw
    obtain ⟨hbackslash, hcode⟩ := not_or.1 hguard
    refine ⟨.verbatim ?_ hquoted, rfl⟩
    simp only [isVerbatim, Bool.and_eq_true, decide_eq_true_eq]
    exact ⟨⟨hquote, hbackslash⟩, Nat.not_lt.1 hcode⟩

theorem isDigits_of_readDigits (h : readDigits s = some (ds, rest)) :
    IsDigits ds ∧ s = ds ++ rest := by
  rw [readDigits, List.span_eq_takeWhile_dropWhile] at h
  split at h
  · cases h
  · next ds' rest' hne heq =>
    obtain ⟨rfl, rfl⟩ := Prod.mk.inj (Option.some.inj h)
    obtain ⟨rfl, rfl⟩ := Prod.mk.inj heq
    exact ⟨⟨hne, fun _ hc => List.mem_takeWhile_imp hc⟩, List.takeWhile_append_dropWhile.symm⟩

theorem exists_derives_of_readWhole {n : Nat} (h : readWhole s = some (n, rest)) :
    ∃ whole, DerivesWhole n whole ∧ s = whole ++ rest := by
  rw [readWhole.eq_def] at h
  split at h
  · obtain ⟨rfl, rfl⟩ := Prod.mk.inj (Option.some.inj h)
    exact ⟨_, .zero, rfl⟩
  · next s hzero =>
    obtain ⟨⟨ds, rest⟩, hds, heq⟩ := Option.map_eq_some_iff.1 h
    obtain ⟨rfl, rfl⟩ := Prod.mk.inj heq
    obtain ⟨hdigits, rfl⟩ := isDigits_of_readDigits hds
    refine ⟨ds, .digits hdigits fun hhead => ?_, rfl⟩
    obtain ⟨u, rfl⟩ := List.head?_eq_some_iff.1 hhead
    exact hzero _ rfl

theorem eq_append_of_readPlaces {places : List Char} (h : readPlaces s = some (places, rest)) :
    (∀ c ∈ places, c.isDigit = true) ∧ s = point places ++ rest := by
  rw [readPlaces.eq_def] at h
  split at h
  · obtain ⟨⟨hne, hdigits⟩, rfl⟩ := isDigits_of_readDigits h
    exact ⟨hdigits, by rw [point, if_neg hne, List.cons_append]⟩
  · obtain ⟨rfl, rfl⟩ := Prod.mk.inj (Option.some.inj h)
    exact ⟨fun _ hc => absurd hc List.not_mem_nil, rfl⟩

/-- The digits of an exponent with the letter in front of them. -/
theorem exists_derives_of_readScale {c : Char} {e : Int} (hc : c = 'e' ∨ c = 'E')
    (h : readScale s = some (e, rest)) :
    ∃ scale, DerivesExponent (some e) scale ∧ c :: s = scale ++ rest := by
  rw [readScale.eq_def] at h
  split at h
  all_goals
    obtain ⟨⟨ds, rest⟩, hds, heq⟩ := Option.map_eq_some_iff.1 h
    obtain ⟨rfl, rfl⟩ := Prod.mk.inj heq
    obtain ⟨hdigits, rfl⟩ := isDigits_of_readDigits hds
  · exact ⟨_, .minus hc hdigits, rfl⟩
  · exact ⟨_, .plus hc hdigits, rfl⟩
  · exact ⟨_, .bare hc hdigits, rfl⟩

theorem exists_derives_of_readExponent {e : Option Int} (h : readExponent s = some (e, rest)) :
    ∃ scale, DerivesExponent e scale ∧ s = scale ++ rest := by
  rw [readExponent.eq_def] at h
  split at h
  · obtain ⟨⟨e, rest⟩, he, heq⟩ := Option.map_eq_some_iff.1 h
    obtain ⟨rfl, rfl⟩ := Prod.mk.inj heq
    exact exists_derives_of_readScale (.inl rfl) he
  · obtain ⟨⟨e, rest⟩, he, heq⟩ := Option.map_eq_some_iff.1 h
    obtain ⟨rfl, rfl⟩ := Prod.mk.inj heq
    exact exists_derives_of_readScale (.inr rfl) he
  · obtain ⟨rfl, rfl⟩ := Prod.mk.inj (Option.some.inj h)
    exact ⟨[], .absent, rfl⟩

theorem exists_derives_of_readNumber {negative : Bool} (h : readNumber negative s = some (j, rest)) :
    ∃ t, Derives j ((if negative then ['-'] else []) ++ t) ∧ s = t ++ rest := by
  simp only [readNumber, Option.bind_eq_bind, Option.bind_eq_some_iff] at h
  obtain ⟨⟨whole, u⟩, hwhole, ⟨places, v⟩, hplaces, ⟨exponent, w⟩, hexponent, heq⟩ := h
  obtain ⟨rfl, rfl⟩ := Prod.mk.inj (Option.some.inj heq)
  obtain ⟨digits, hdigits, rfl⟩ := exists_derives_of_readWhole hwhole
  obtain ⟨hproper, rfl⟩ := eq_append_of_readPlaces hplaces
  obtain ⟨scale, hscale, rfl⟩ := exists_derives_of_readExponent hexponent
  refine ⟨_, .number (.mk (.mk hdigits hproper hscale)), ?_⟩
  simp only [List.append_assoc]

theorem exists_derives_of_readScalar (h : readScalar s = some (j, rest)) :
    ∃ t, Derives j t ∧ s = t ++ rest := by
  rw [readScalar.eq_def] at h
  split at h
  · obtain ⟨rfl, rfl⟩ := Prod.mk.inj (Option.some.inj h)
    exact ⟨_, .null, rfl⟩
  · obtain ⟨rfl, rfl⟩ := Prod.mk.inj (Option.some.inj h)
    exact ⟨_, .bool_true, rfl⟩
  · obtain ⟨rfl, rfl⟩ := Prod.mk.inj (Option.some.inj h)
    exact ⟨_, .bool_false, rfl⟩
  · obtain ⟨⟨raw, rest⟩, hraw, heq⟩ := Option.map_eq_some_iff.1 h
    obtain ⟨rfl, rfl⟩ := Prod.mk.inj heq
    obtain ⟨hquoted, rfl⟩ := isQuoted_of_readRaw hraw
    exact ⟨_, .string hquoted, by simp⟩
  · obtain ⟨t, ht, rfl⟩ := exists_derives_of_readNumber h
    exact ⟨_, ht, rfl⟩
  · exact exists_derives_of_readNumber h

/-! ### Documents -/

theorem Blanks.append {b b' : List Char} (hb : Blanks b) (hb' : Blanks b') : Blanks (b ++ b') :=
  fun c hc => (List.mem_append.1 hc).elim (hb c) (hb' c)

theorem DerivesItems.append {items : List Json} {b : List Char} (hb : Blanks b)
    (h : DerivesItems items s) : DerivesItems items (b ++ s) := by
  cases h with
  | last hb' hj hb'' => exact List.append_assoc .. ▸ .last (hb.append hb') hj hb''
  | cons hb' hj hb'' ht => exact List.append_assoc .. ▸ .cons (hb.append hb') hj hb'' ht

theorem DerivesMembers.append {members : List (List Char × Json)} {b : List Char} (hb : Blanks b)
    (h : DerivesMembers members s) : DerivesMembers members (b ++ s) := by
  cases h with
  | last hb' hm hb'' => exact List.append_assoc .. ▸ .last (hb.append hb') hm hb''
  | cons hb' hm hb'' ht => exact List.append_assoc .. ▸ .cons (hb.append hb') hm hb'' ht

/-- Where a sign was found, white space stands in front of it. -/
theorem exists_blanks_of_skipBlanks {c : Char} (h : skipBlanks s = c :: rest) :
    ∃ b, Blanks b ∧ s = b ++ c :: rest := by
  obtain ⟨b, hb, hs⟩ := exists_blanks s
  exact ⟨b, hb, h ▸ hs⟩

mutual

/-- What the reader takes off a text for a value is a text of the value. -/
theorem exists_derives_of_readValue : ∀ (fuel : Nat) {j : Json} {s rest : List Char},
    readValue fuel s = some (j, rest) → ∃ t, Derives j t ∧ s = t ++ rest
  | 0, _, _, _, h => nomatch h
  | fuel + 1, _, _, _, h => by
    rw [readValue.eq_def] at h
    dsimp only at h
    split at h
    · next s =>
      obtain ⟨b, hb, hs⟩ := exists_blanks s
      split at h
      · next rest hskip =>
        obtain ⟨rfl, rfl⟩ := Prod.mk.inj (Option.some.inj h)
        exact ⟨_, .emptyArray hb, by rw [hs, hskip]; simp⟩
      · obtain ⟨⟨items, rest⟩, hitems, heq⟩ := Option.map_eq_some_iff.1 h
        obtain ⟨rfl, rfl⟩ := Prod.mk.inj heq
        obtain ⟨t, ht, hskip⟩ := exists_derives_of_readItems fuel hitems
        exact ⟨_, .array (ht.append hb), by rw [hs, hskip]; simp⟩
    · next s =>
      obtain ⟨b, hb, hs⟩ := exists_blanks s
      split at h
      · next rest hskip =>
        obtain ⟨rfl, rfl⟩ := Prod.mk.inj (Option.some.inj h)
        exact ⟨_, .emptyObject hb, by rw [hs, hskip]; simp⟩
      · obtain ⟨⟨members, rest⟩, hmembers, heq⟩ := Option.map_eq_some_iff.1 h
        obtain ⟨rfl, rfl⟩ := Prod.mk.inj heq
        obtain ⟨t, ht, hskip⟩ := exists_derives_of_readMembers fuel hmembers
        exact ⟨_, .object (ht.append hb), by rw [hs, hskip]; simp⟩
    · exact exists_derives_of_readScalar h

theorem exists_derives_of_readItems : ∀ (fuel : Nat) {items : List Json} {s rest : List Char},
    readItems fuel s = some (items, rest) → ∃ t, DerivesItems items t ∧ s = t ++ rest
  | 0, _, _, _, h => nomatch h
  | fuel + 1, _, _, _, h => by
    rw [readItems] at h
    obtain ⟨⟨item, u⟩, hitem, hnext⟩ := Option.bind_eq_some_iff.1 h
    obtain ⟨t, ht, rfl⟩ := exists_derives_of_readValue fuel hitem
    dsimp only at hnext
    split at hnext
    · next hskip =>
      obtain ⟨b, hb, rfl⟩ := exists_blanks_of_skipBlanks hskip
      obtain ⟨rfl, rfl⟩ := Prod.mk.inj (Option.some.inj hnext)
      exact ⟨_, .last blanks_nil ht hb, by simp⟩
    · next v hskip =>
      obtain ⟨b, hb, rfl⟩ := exists_blanks_of_skipBlanks hskip
      obtain ⟨⟨items, rest⟩, hitems, heq⟩ := Option.bind_eq_some_iff.1 hnext
      obtain ⟨rfl, rfl⟩ := Prod.mk.inj (Option.some.inj heq)
      obtain ⟨b', hb', hv⟩ := exists_blanks v
      obtain ⟨t', ht', hskip'⟩ := exists_derives_of_readItems fuel hitems
      exact ⟨_, .cons blanks_nil ht hb (ht'.append hb'), by rw [hv, hskip']; simp⟩
    · exact nomatch hnext

theorem exists_derives_of_readMembers : ∀ (fuel : Nat) {members : List (List Char × Json)}
    {s rest : List Char}, readMembers fuel s = some (members, rest) →
      ∃ t, DerivesMembers members t ∧ s = t ++ rest
  | 0, _, _, _, h => nomatch h
  | fuel + 1, _, _, _, h => by
    rw [readMembers.eq_def] at h
    dsimp only at h
    split at h
    · obtain ⟨⟨key, u⟩, hkey, hmember⟩ := Option.bind_eq_some_iff.1 h
      obtain ⟨hquoted, rfl⟩ := isQuoted_of_readRaw hkey
      dsimp only at hmember
      split at hmember
      · next v hcolon =>
        obtain ⟨b, hb, rfl⟩ := exists_blanks_of_skipBlanks hcolon
        obtain ⟨b', hb', hv⟩ := exists_blanks v
        obtain ⟨⟨j, u⟩, hj, hnext⟩ := Option.bind_eq_some_iff.1 hmember
        obtain ⟨t, ht, hskip⟩ := exists_derives_of_readValue fuel hj
        have hm := DerivesMember.mk hquoted hb hb' ht
        dsimp only at hnext
        split at hnext
        · next hend =>
          obtain ⟨b'', hb'', rfl⟩ := exists_blanks_of_skipBlanks hend
          obtain ⟨rfl, rfl⟩ := Prod.mk.inj (Option.some.inj hnext)
          exact ⟨_, .last blanks_nil hm hb'', by rw [hv, hskip]; simp⟩
        · next w hend =>
          obtain ⟨b'', hb'', rfl⟩ := exists_blanks_of_skipBlanks hend
          obtain ⟨⟨members, rest⟩, hmembers, heq⟩ := Option.bind_eq_some_iff.1 hnext
          obtain ⟨rfl, rfl⟩ := Prod.mk.inj (Option.some.inj heq)
          obtain ⟨c, hc, hw⟩ := exists_blanks w
          obtain ⟨t', ht', hskip'⟩ := exists_derives_of_readMembers fuel hmembers
          exact ⟨_, .cons blanks_nil hm hb'' (ht'.append hc), by rw [hv, hskip, hw, hskip']; simp⟩
        · exact nomatch hnext
      · exact nomatch hmember
    · exact nomatch h

end

/-- A text is read as a document if and only if it is a text of the document. -/
theorem parse_eq_some_iff {text : String} : parse text = some j ↔ j.HasText text := by
  refine ⟨fun h => ?_, parse_of_hasText⟩
  obtain ⟨⟨j', rest⟩, hread, h⟩ := Option.bind_eq_some_iff.1 h
  obtain ⟨b, hb, hs⟩ := exists_blanks text.toList
  obtain ⟨b', hb', hrest⟩ := exists_blanks rest
  obtain ⟨t, ht, hskip⟩ := exists_derives_of_readValue _ hread
  by_cases hblank : skipBlanks rest = []
  · obtain rfl := Option.some.inj ((if_pos hblank).symm.trans h)
    rw [hblank, List.append_nil] at hrest
    exact ⟨b, t, b', hb, ht, hb', by rw [hs, hskip, ← hrest]⟩
  · exact nomatch (if_neg hblank).symm.trans h

end ScriptBlocks.Json
