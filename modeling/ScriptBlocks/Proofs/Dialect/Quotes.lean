import ScriptBlocks.Dialect.Display
import ScriptBlocks.Proofs.Pattern.Run

/-!
# The quotes around a picture

The content of a picture lies between quotes of three, and it may have quotes in it. It ends at the
first ones that have the closing parenthesis behind them, with no more than white space in between, and
it belongs to the first picture of the text that ends at all.

## Main definitions

* `Dialect.opened?`, `Dialect.closes` — the text in front of the content of a picture and behind it
* `Dialect.picture?` — the content of the first picture in a text

## Main statements

* `Dialect.matchIn_basicShowLeds` — the form finds the content of the first picture
-/

namespace ScriptBlocks

open Text

namespace Dialect

/-- What follows three quotes of either kind. -/
def afterQuotes? (s : List Char) : Option (List Char) :=
  (s.dropPrefix? "\"\"\"".toList).or (s.dropPrefix? "'''".toList)

/-- What follows the word and the quotes in front of a picture. -/
def opened? (s : List Char) : Option (List Char) :=
  (s.dropPrefix? "basic.show_leds(".toList).bind fun t => afterQuotes? (t.dropWhile isWhite)

/-- The text starts with the quotes and the parenthesis behind a picture. -/
def closes (s : List Char) : Bool :=
  (afterQuotes? s).any fun t => (t.dropWhile isWhite).head? = some ')'

/-- The content of the first picture in a text. -/
def picture? : List Char → Option (List Char)
  | [] => none
  | c :: s => ((opened? (c :: s)).bind (Pattern.shortest closes)).or (picture? s)

variable {α : Type} {k : Pattern.Place → Option (Pattern.Ending α)} {before s t : List Char}

/-! ### The text in front and the text behind -/

theorem dropPrefix?_eq_some_iff {w : List Char} : s.dropPrefix? w = some t ↔ s = w ++ t := by
  simp [List.dropPrefix?_eq_some_iff]

theorem afterQuotes?_eq_some_iff : afterQuotes? s = some t ↔
    ∃ q, (q = "\"\"\"".toList ∨ q = "'''".toList) ∧ s = q ++ t := by
  rw [afterQuotes?, Option.or_eq_some_iff, dropPrefix?_eq_some_iff, dropPrefix?_eq_some_iff]
  constructor
  · rintro (h | ⟨-, h⟩)
    · exact ⟨_, .inl rfl, h⟩
    · exact ⟨_, .inr rfl, h⟩
  · rintro ⟨q, rfl | rfl, rfl⟩
    · exact .inl rfl
    · exact .inr ⟨rfl, rfl⟩

theorem afterQuotes?_cons_of_ne {c : Char} (hc : c ≠ '"' ∧ c ≠ '\'') :
    afterQuotes? (c :: s) = none := by
  simp [afterQuotes?, List.dropPrefix?, hc]

theorem afterQuotes?_of_isWhite {c : Char} (hc : isWhite c = true) :
    afterQuotes? (c :: s) = none := by
  refine afterQuotes?_cons_of_ne ⟨?_, ?_⟩
  · rintro rfl
    exact absurd hc (by decide)
  · rintro rfl
    exact absurd hc (by decide)

/-- No picture ends where there are no quotes. -/
theorem closes_cons_of_ne {c : Char} (hc : c ≠ '"' ∧ c ≠ '\'') : closes (c :: s) = false := by
  rw [closes, afterQuotes?_cons_of_ne hc]
  rfl

theorem run_quotes : (Pattern.alt (.lit "\"\"\"") (.lit "'''")).run k ⟨before, s⟩ =
    (afterQuotes? s).bind fun t => k ⟨(s.take 3).reverse ++ before, t⟩ := by
  rw [Pattern.run, Pattern.run_lit, Pattern.run_lit, Option.orElse_eq_or]
  cases h : afterQuotes? s with
  | none =>
    rw [afterQuotes?, Option.or_eq_none_iff] at h
    rw [h.1, h.2]
    rfl
  | some t =>
    obtain ⟨q, rfl | rfl, rfl⟩ := afterQuotes?_eq_some_iff.1 h
    · simp [List.dropPrefix?]
    · simp [List.dropPrefix?]

/-- The end of a picture: quotes and a parenthesis. -/
def closing : Pattern := .all [.alt (.lit "\"\"\"") (.lit "'''"), .blanks, .lit ")"]

theorem run_closing (before s : List Char) : (closing.run Pattern.finish ⟨before, s⟩).map Pattern.Ending.groups =
    if closes s then some [] else none := by
  change (Pattern.run (.alt _ _) ((Pattern.seq .blanks (.lit ")")).run Pattern.finish) _).map _ = _
  rw [run_quotes, closes]
  cases afterQuotes? s with
  | none => rfl
  | some t =>
    have hblanks : ∀ b c t, isWhite c = true →
        (Pattern.lit ")").run Pattern.finish ⟨b, c :: t⟩ = none := by
      intro b c t hc
      have hne : c ≠ ')' := by
        rintro rfl
        exact absurd hc (by decide)
      rw [Pattern.run_lit]
      simp [List.dropPrefix?, hne]
    rw [Option.bind_some, Option.any_some, Pattern.run, Pattern.run_blanks hblanks, Pattern.run_lit]
    cases t.dropWhile isWhite with
    | nil => rfl
    | cons c rest =>
      by_cases hc : c = ')'
      · simp [List.dropPrefix?, hc, Pattern.finish]
      · simp [List.dropPrefix?, hc]

/-- There is one way to match what is in front of the content of a picture. -/
theorem run_opening (p : Pattern) (k : Pattern.Place → Option (Pattern.Ending α))
    (before s : List Char) :
    let opening := Pattern.all [.lit "basic.show_leds(", .blanks, .alt (.lit "\"\"\"") (.lit "'''"), p]
    (opened? s = none → opening.run k ⟨before, s⟩ = none) ∧
    ∀ t, opened? s = some t → ∃ w, s = w ++ t ∧
      opening.run k ⟨before, s⟩ = p.run k ⟨w.reverse ++ before, t⟩ := by
  intro opening
  have hquotes : ∀ b c t, isWhite c = true →
      (Pattern.alt (.lit "\"\"\"") (.lit "'''")).run (p.run k) ⟨b, c :: t⟩ = none := by
    intro b c t hc
    rw [run_quotes, afterQuotes?_of_isWhite hc, Option.bind_none]
  have hrun : opening.run k ⟨before, s⟩ = (s.dropPrefix? "basic.show_leds(".toList).bind fun u =>
      (afterQuotes? (u.dropWhile isWhite)).bind fun t =>
        p.run k ⟨((u.dropWhile isWhite).take 3).reverse ++ ((u.takeWhile isWhite).reverse ++
          ("basic.show_leds(".toList.reverse ++ before)), t⟩ := by
    change (Pattern.lit _).run (Pattern.run .blanks ((Pattern.alt _ _).run (p.run k))) _ = _
    simp only [Pattern.run_lit, Pattern.run_blanks hquotes, run_quotes]
  rw [hrun, opened?]
  cases hword : s.dropPrefix? "basic.show_leds(".toList with
  | none => exact ⟨fun _ => rfl, nofun⟩
  | some u =>
    simp only [Option.bind_some]
    refine ⟨fun hnone => by rw [hnone, Option.bind_none], fun t ht => ?_⟩
    obtain ⟨q, hq, hsplit⟩ := afterQuotes?_eq_some_iff.1 ht
    have hthree : (u.dropWhile isWhite).take 3 = q := by
      rw [hsplit]
      obtain rfl | rfl := hq <;> simp
    refine ⟨"basic.show_leds(".toList ++ (u.takeWhile isWhite ++ q), ?_, ?_⟩
    · rw [dropPrefix?_eq_some_iff.1 hword, List.append_assoc, List.append_assoc, ← hsplit,
        List.takeWhile_append_dropWhile]
    · rw [ht, Option.bind_some, hthree]
      simp only [List.reverse_append, List.append_assoc]

/-! ### The content -/

/-- From a place the form finds the content up to the first end of the picture. -/
theorem matchAt_basicShowLeds (before s : List Char) :
    (basicShowLeds.pattern.matchAt (before.reverse ++ s) before.length).map
      (fun e => (Capture.ofEnding (before.reverse ++ s) before.length e).group 1) =
        ((opened? s).bind (Pattern.shortest closes)).map String.ofList := by
  have hplace : Pattern.Place.ofOffset (before.reverse ++ s) before.length = ⟨before, s⟩ := by
    rw [Pattern.Place.ofOffset, ← List.length_reverse, List.take_left, List.drop_left,
      List.reverse_reverse]
  obtain ⟨hnone, hsome⟩ := run_opening
    (.seq (.group 1 (.few fun _ => true)) closing) Pattern.finish before s
  rw [Pattern.matchAt, hplace]
  cases hopened : opened? s with
  | none => exact congrArg _ (hnone hopened)
  | some t =>
    obtain ⟨w, rfl, hrun⟩ := hsome t hopened
    have hrun : basicShowLeds.pattern.run Pattern.finish ⟨before, w ++ t⟩ = _ := hrun
    have hstops (b t : List Char) : ((closing.run Pattern.finish ⟨b, t⟩).map fun e =>
        e.stoppingAt b.length).isSome = closes t := by
      rw [Option.isSome_map, ← Option.isSome_map (f := Pattern.Ending.groups), run_closing]
      cases closes t <;> rfl
    rw [hrun, Pattern.run, Pattern.run, Pattern.run, Pattern.runFew_eq hstops, Option.bind_some]
    cases hcontent : Pattern.shortest closes t with
    | none => rfl
    | some u =>
      obtain ⟨rest, rfl, hcloses⟩ := Pattern.exists_of_shortest hcontent
      have hgroups := run_closing (u.reverse ++ (w.reverse ++ before)) rest
      rw [if_pos hcloses, Option.map_eq_some_iff] at hgroups
      obtain ⟨⟨value, _⟩, hend, rfl⟩ := hgroups
      rw [Option.bind_some, List.drop_left, hend]
      refine congrArg some ?_
      -- the group is as long as the content, and it starts where the picture is opened
      change Capture.slice _ (w.reverse ++ before).length
        (u.reverse ++ (w.reverse ++ before)).length = _
      have htext : before.reverse ++ (w ++ (u ++ rest)) =
          (w.reverse ++ before).reverse ++ (u ++ rest) := by simp
      have hfront : (w.reverse ++ before).length = (w.reverse ++ before).reverse.length :=
        List.length_reverse.symm
      rw [Capture.slice, htext, hfront, List.drop_left, List.length_append, List.length_reverse,
        List.length_reverse, Nat.add_sub_cancel, List.take_left]

/-- The leftmost match of the form has the content of the first picture, and there is none in a text
without a picture. -/
theorem matchIn_basicShowLeds (s : List Char) :
    (basicShowLeds.matchIn (.ofList s)).map (·.group 1) = (picture? s).map String.ofList := by
  have hfrom (before tail : List Char) (hs : s = before.reverse ++ tail) :
      ((List.range' before.length (tail.length + 1)).findSome? fun start =>
        (basicShowLeds.pattern.matchAt s start).map (start, ·)).map
          (fun m => (Capture.ofEnding s m.1 m.2).group 1) = (picture? tail).map String.ofList := by
    induction tail generalizing before with
    | nil =>
      have hmatch := matchAt_basicShowLeds before []
      rw [← hs, show opened? [] = none from rfl, Option.bind_none, Option.map_none,
        Option.map_eq_none_iff] at hmatch
      simp [hmatch, picture?]
    | cons c tail ih =>
      have hmatch := matchAt_basicShowLeds before (c :: tail)
      rw [← hs] at hmatch
      rw [List.length_cons, List.range'_succ, List.findSome?_cons, picture?]
      cases hpicture : (opened? (c :: tail)).bind (Pattern.shortest closes) with
      | none =>
        rw [hpicture, Option.map_none, Option.map_eq_none_iff] at hmatch
        rw [hmatch, Option.none_or]
        refine ih (c :: before) ?_
        rw [hs, List.reverse_cons, List.append_assoc, List.singleton_append]
      | some u =>
        rw [hpicture, Option.map_some, Option.map_eq_some_iff] at hmatch
        obtain ⟨e, he, hgroup⟩ := hmatch
        rw [he, Option.some_or]
        exact congrArg some hgroup
  rw [Form.matchIn, Pattern.search_eq, String.toList_ofList, Option.map_map, Pattern.leftmost,
    List.range_eq_range']
  exact hfrom [] s rfl

theorem picture?_of_opened? {u : List Char} (hopened : opened? s = some t)
    (hcontent : Pattern.shortest closes t = some u) : picture? s = some u := by
  cases s with
  | nil => exact nomatch hopened
  | cons c s => rw [picture?, hopened, Option.bind_some, hcontent, Option.some_or]

/-- A content without quotes ends where the picture does. -/
theorem shortest_closes_append (hs : ∀ c ∈ s, c ≠ '"' ∧ c ≠ '\'') (ht : closes t = true) :
    Pattern.shortest closes (s ++ t) = some s := by
  induction s with
  | nil => cases t <;> simp [Pattern.shortest, ht]
  | cons c s ih =>
    obtain ⟨hc, hs⟩ := List.forall_mem_cons.1 hs
    rw [List.cons_append, Pattern.shortest, closes_cons_of_ne hc, ih hs]
    rfl

end Dialect

end ScriptBlocks
