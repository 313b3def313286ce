import ScriptBlocks.Pattern

/-!
# Matchers

A pattern is turned into a matcher of one text, from the end of the pattern to its start: the
matcher of a sequence is that of its first part, built on that of its second part. The result of a
matcher at an offset depends on nothing but the offset. So a repetition fills a table with its
results at all offsets when it is first asked for one, an alternative keeps the results of what
follows it in the same way, and the time of matching is bounded by the length of the text times the
size of the pattern.

## Main definitions

* `Pattern.Matcher` — the results of matching at each offset of a text
* `Pattern.matcher` — the matcher of a pattern and of what follows it
* `Pattern.wholeMatcher` — the matcher of a pattern on its own
* `Pattern.Matcher.first?` — the first offset that has a result

## Main statements

* `Pattern.resultAt_matcher` — a matcher gives the results that `Pattern.run` describes
-/

namespace ScriptBlocks.Pattern

/-- The results of matching at each offset of a text. -/
structure Matcher (α : Type) where
  resultAt : Nat → Option (Ending α)

variable {α β : Type}

/-! ### Tables of results -/

/-- Puts the results at the offsets below `i` behind `done`, the largest offset first. `step` gives
the result at an offset from the result `next` at the offset after it. -/
def tabulateBelow (step : Nat → β → β) : Nat → β → Array β → Array β
  | 0, _, done => done
  | i + 1, next, done =>
    let result := step i next
    tabulateBelow step i result (done.push result)

/-- The results at the offsets up to `n`, the largest offset first, where `last` is the one at
`n`. -/
def tabulate (step : Nat → β → β) (n : Nat) (last : β) : Array β :=
  tabulateBelow step n last #[last]

theorem tabulateBelow_eq {step : Nat → β → β} {f : Nat → β} {n : Nat}
    (hf : ∀ i < n, f i = step i (f (i + 1))) (done : Array β) :
    tabulateBelow step n (f n) done = done ++ ((List.range n).reverse.map f).toArray := by
  induction n generalizing done with
  | zero => simp [tabulateBelow]
  | succ n ih =>
    rw [tabulateBelow, ← hf n (Nat.lt_succ_self n), ih fun i hi => hf i (Nat.lt_succ_of_lt hi)]
    simp [List.range_succ]

theorem tabulate_eq {step : Nat → β → β} {f : Nat → β} {n : Nat}
    (hf : ∀ i < n, f i = step i (f (i + 1))) :
    tabulate step n (f n) = ((List.range (n + 1)).reverse.map f).toArray := by
  rw [tabulate, tabulateBelow_eq hf]
  simp [List.range_succ]

namespace Matcher

-- A matcher is built before it is asked for a result, so that its tables are filled once. So the
-- definitions that take a table or a matcher are not unfolded into their results.

/-- Looks the results up in a table, which is filled at the first look-up. -/
@[noinline]
def ofTable (table : Thunk (Array (Option (Ending α)))) (n : Nat) : Matcher α where
  resultAt i := table.get.getD (n - i) none

/-- The results of `m`, each computed once. -/
@[noinline]
def remembered (m : Matcher α) (n : Nat) : Matcher α :=
  ofTable (.mk fun _ => tabulate (fun i _ => m.resultAt i) n (m.resultAt n)) n

/-- The results of `m`, changed by a function of the offset. -/
@[noinline]
def mapResults (m : Matcher α) (f : Nat → Ending α → Ending β) : Matcher β where
  resultAt i := (m.resultAt i).map (f i)

/-- The results of `m`, and those of `n` at the offsets where `m` has none. -/
@[noinline]
def orElse (m n : Matcher α) : Matcher α where
  resultAt i := (m.resultAt i).orElse fun _ => n.resultAt i

/-- The results of `m` at the offsets that pass a test. -/
def onlyAt (m : Matcher α) (test : Nat → Bool) : Matcher α where
  resultAt i := if test i then m.resultAt i else none

/-- The first of the `count` offsets from `start` on that has a result, with the result. -/
def first? (m : Matcher α) : (count start : Nat) → Option (Nat × Ending α)
  | 0, _ => none
  | count + 1, start =>
    match m.resultAt start with
    | some e => some (start, e)
    | none => m.first? count (start + 1)

theorem resultAt_ofTable {step : Nat → Option (Ending α) → Option (Ending α)}
    {last : Option (Ending α)} {f : Nat → Option (Ending α)} {n i : Nat} (hlast : f n = last)
    (hf : ∀ i < n, f i = step i (f (i + 1))) (hi : i ≤ n) :
    (ofTable (.mk fun _ => tabulate step n last) n).resultAt i = f i := by
  subst hlast
  have hplace : n + 1 - 1 - (n - i) = i := by omega
  have hentry : ((List.range (n + 1)).reverse.map f)[n - i]? = some (f i) := by
    rw [List.getElem?_map, List.getElem?_reverse (by rw [List.length_range]; omega),
      List.length_range, hplace, List.getElem?_range (Nat.lt_succ_of_le hi)]
    rfl
  change (tabulate step n (f n)).getD (n - i) none = f i
  rw [tabulate_eq hf, Array.getD_eq_getD_getElem?, List.getElem?_toArray, hentry]
  rfl

theorem resultAt_remembered (m : Matcher α) {n i : Nat} (hi : i ≤ n) :
    (m.remembered n).resultAt i = m.resultAt i :=
  resultAt_ofTable (f := m.resultAt) rfl (fun _ _ => rfl) hi

/-- The first offset with a result is the first one that gives a result, where `f` says what the
results are. -/
theorem first?_eq {m : Matcher α} {f : Nat → Option (Ending α)} {count start : Nat}
    (hf : ∀ i < start + count, m.resultAt i = f i) :
    m.first? count start = (List.range' start count).findSome? fun i => (f i).map (i, ·) := by
  induction count generalizing start with
  | zero => rfl
  | succ count ih =>
    rw [first?, List.range'_succ, List.findSome?_cons, ← hf start (by omega)]
    cases m.resultAt start with
    | none => exact ih fun i hi => hf i (by omega)
    | some e => rfl

end Matcher

/-! ### The matcher of a pattern -/

/-- Whether the character at an offset of a text passes a test. -/
@[inline]
def holdsAt (text : Array Char) (test : Char → Bool) (i : Nat) : Bool :=
  if h : i < text.size then test text[i] else false

/-- Whether exactly one side of an offset is a word character. -/
def isWordBoundary (text : Array Char) (i : Nat) : Bool :=
  (i != 0 && holdsAt text Text.isWord (i - 1)) != holdsAt text Text.isWord i

/-- The matcher of a pattern that is followed by what `k` matches. -/
def matcher (text : Array Char) : Pattern → {α : Type} → Matcher α → Matcher α
  | nothing, _, k => k
  | one test, _, k => ⟨fun i => if holdsAt text test i then k.resultAt (i + 1) else none⟩
  | seq p q, _, k => matcher text p (matcher text q k)
  | alt p q, _, k =>
    let k := k.remembered text.size
    (matcher text p k).orElse (matcher text q k)
  | many test, _, k =>
    .ofTable
      (.mk fun _ =>
        tabulate
          (fun i next =>
            if holdsAt text test i then next.orElse fun _ => k.resultAt i else k.resultAt i)
          text.size (k.resultAt text.size))
      text.size
  | few test, _, k =>
    .ofTable
      (.mk fun _ =>
        tabulate
          (fun i next => (k.resultAt i).orElse fun _ => if holdsAt text test i then next else none)
          text.size (k.resultAt text.size))
      text.size
  | group index p, _, k =>
    (matcher text p (k.mapResults fun i e => e.stoppingAt i)).mapResults fun i e =>
      e.startingAt index i
  | atStart, _, k => k.onlyAt fun i => i = 0
  | atEnd, _, k => k.onlyAt fun i => i = text.size
  | wordBoundary, _, k => k.onlyAt (isWordBoundary text)

/-- The matcher of a pattern and nothing after it. -/
def wholeMatcher (p : Pattern) (text : Array Char) : Matcher Nat :=
  matcher text p ⟨fun i => some ⟨i, []⟩⟩

/-! ### Agreement with the meaning of patterns -/

section Agreement

variable {s : List Char} {i : Nat}

theorem holdsAt_of_lt (test : Char → Bool) (hi : i < s.length) :
    holdsAt s.toArray test i = test s[i] := by
  simp [holdsAt, hi]

theorem isWordBoundary_eq (hi : i ≤ s.length) :
    isWordBoundary s.toArray i = (Place.ofOffset s i).atWordBoundary := by
  cases i with
  | zero => cases s <;> simp [isWordBoundary, holdsAt, Place.atWordBoundary, Place.ofOffset]
  | succ i =>
    have hbefore : (Place.ofOffset s (i + 1)).before.head?.any Text.isWord
        = holdsAt s.toArray Text.isWord i := by
      rw [Place.ofOffset_succ hi, holdsAt_of_lt _ hi]
      rfl
    have hrest : (Place.ofOffset s (i + 1)).rest.head?.any Text.isWord
        = holdsAt s.toArray Text.isWord (i + 1) := by
      by_cases h : i + 1 < s.length
      · rw [Place.ofOffset_of_lt h, holdsAt_of_lt _ h]
        rfl
      · simp [Place.ofOffset, holdsAt, List.drop_eq_nil_of_le (Nat.le_of_not_lt h), h]
    simp [isWordBoundary, Place.atWordBoundary, hbefore, hrest]

variable {k : Place → Option β}

/-- One step of a greedy repetition. -/
theorem runMany_ofOffset (test : Char → Bool) (hi : i < s.length) :
    runMany test k (Place.ofOffset s i).before (Place.ofOffset s i).rest =
      if holdsAt s.toArray test i then
        (runMany test k (Place.ofOffset s (i + 1)).before (Place.ofOffset s (i + 1)).rest).orElse
          fun _ => k (.ofOffset s i)
      else k (.ofOffset s i) := by
  rw [Place.ofOffset_of_lt hi, Place.ofOffset_succ hi, holdsAt_of_lt test hi, runMany]

theorem runMany_ofOffset_length (test : Char → Bool) :
    runMany test k (Place.ofOffset s s.length).before (Place.ofOffset s s.length).rest =
      k (.ofOffset s s.length) := by
  simp [Place.ofOffset, runMany]

/-- One step of a lazy repetition. -/
theorem runFew_ofOffset (test : Char → Bool) (hi : i < s.length) :
    runFew test k (Place.ofOffset s i).before (Place.ofOffset s i).rest =
      (k (.ofOffset s i)).orElse fun _ =>
        if holdsAt s.toArray test i then
          runFew test k (Place.ofOffset s (i + 1)).before (Place.ofOffset s (i + 1)).rest
        else none := by
  rw [Place.ofOffset_of_lt hi, Place.ofOffset_succ hi, holdsAt_of_lt test hi, runFew]

theorem runFew_ofOffset_length (test : Char → Bool) :
    runFew test k (Place.ofOffset s s.length).before (Place.ofOffset s s.length).rest =
      k (.ofOffset s s.length) := by
  simp [Place.ofOffset, runFew]

/-- The matcher of a pattern followed by `m` gives the results of running the pattern with the
continuation that `m` stands for. -/
theorem resultAt_matcher (p : Pattern) {m : Matcher α} {k : Place → Option (Ending α)}
    (hk : ∀ i ≤ s.length, m.resultAt i = k (.ofOffset s i)) (hi : i ≤ s.length) :
    (matcher s.toArray p m).resultAt i = p.run k (.ofOffset s i) := by
  induction p generalizing α i with
  | nothing => exact hk i hi
  | one test =>
    simp only [matcher, run]
    by_cases h : i < s.length
    · rw [hk (i + 1) h, holdsAt_of_lt test h, Place.ofOffset_of_lt h, Place.ofOffset_succ h]
    · simp [holdsAt, h, Place.ofOffset, List.drop_eq_nil_of_le (Nat.le_of_not_lt h)]
  | seq p q ihp ihq => exact ihp (fun i hi => ihq hk hi) hi
  | alt p q ihp ihq =>
    have hremembered : ∀ i ≤ s.length,
        (m.remembered s.toArray.size).resultAt i = k (.ofOffset s i) := fun i hi =>
      (m.resultAt_remembered (by simpa using hi)).trans (hk i hi)
    simp only [matcher, Matcher.orElse, run, ihp hremembered hi, ihq hremembered hi]
  | many test =>
    refine Matcher.resultAt_ofTable
      (f := fun i => runMany test k (Place.ofOffset s i).before (Place.ofOffset s i).rest)
      ?_ (fun i hi => ?_) hi
    · exact (runMany_ofOffset_length test).trans (hk s.length (Nat.le_refl _)).symm
    · rw [hk i (Nat.le_of_lt hi)]
      exact runMany_ofOffset test hi
  | few test =>
    refine Matcher.resultAt_ofTable
      (f := fun i => runFew test k (Place.ofOffset s i).before (Place.ofOffset s i).rest)
      ?_ (fun i hi => ?_) hi
    · exact (runFew_ofOffset_length test).trans (hk s.length (Nat.le_refl _)).symm
    · rw [hk i (Nat.le_of_lt hi)]
      exact runFew_ofOffset test hi
  | group index p ih =>
    have hstop : ∀ i ≤ s.length,
        (m.mapResults fun i e => e.stoppingAt i).resultAt i =
          (k (.ofOffset s i)).map fun e => e.stoppingAt (Place.ofOffset s i).offset :=
      fun i hi => by simp only [Matcher.mapResults, hk i hi, Place.offset_ofOffset hi]
    simp only [matcher, run, Place.offset_ofOffset hi]
    exact congrArg (Option.map fun e => e.startingAt index i)
      (ih (k := fun t => (k t).map fun e => e.stoppingAt t.offset) hstop hi)
  | atStart =>
    have hempty : (Place.ofOffset s i).before.isEmpty = decide (i = 0) := by
      rcases i with _ | i
      · simp [Place.ofOffset]
      · simp [Place.ofOffset_succ hi]
    simp only [matcher, Matcher.onlyAt, run, hk i hi, hempty]
  | atEnd =>
    have hempty : (Place.ofOffset s i).rest.isEmpty = decide (i = s.toArray.size) := by
      by_cases h : i < s.length
      · simp [Place.ofOffset_of_lt h, h, Nat.ne_of_lt h]
      · simp [Place.ofOffset, Nat.le_antisymm hi (Nat.le_of_not_lt h)]
    simp only [matcher, Matcher.onlyAt, run, hk i hi, hempty]
  | wordBoundary =>
    simp only [matcher, Matcher.onlyAt, run, hk i hi, isWordBoundary_eq hi]

theorem resultAt_wholeMatcher (p : Pattern) (hi : i ≤ s.length) :
    (p.wholeMatcher s.toArray).resultAt i = p.matchAt s i :=
  resultAt_matcher p (fun i hi => by rw [finish, Place.offset_ofOffset hi]) hi

end Agreement

end ScriptBlocks.Pattern
