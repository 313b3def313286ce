import Mathlib.Data.List.Infix
import ScriptBlocks.Proofs.Expression.Scan

/-!
# Brackets outside string literals

The scan for operators passes over string literals, so only the brackets outside them count. As long
as these never close more than was opened, the whole text is nested in a pair of parentheses around
it, and no operator in it counts.

## Main definitions

* `Expression.Region` — where a text is, as string literals go
* `Expression.outside` — the characters outside string literals
* `Expression.Nested` — brackets that never close more than was opened

## Main statements

* `Expression.topLevelOperators_parenthesized` — no operator counts in parentheses
-/

namespace ScriptBlocks.Expression

variable {s t rest : List Char} {c : Char} {depth offset : Nat}

/-! ### Literals -/

/-- Where a text is, as string literals go: a literal runs from a quote to the same quote, and a
backslash in it hides the next character. -/
inductive Region where
  | code
  | literal (quote : Char)
  /-- Behind a backslash. -/
  | hidden (quote : Char)
deriving DecidableEq

/-- The region behind a character. -/
def Region.next : Region → Char → Region
  | code, c => if c = '"' ∨ c = '\'' then literal c else code
  | literal q, c => if c = '\\' then hidden q else if c = q then code else literal q
  | hidden q, _ => literal q

/-- The characters outside string literals, with the quotes that open them. -/
def outside : Region → List Char → List Char
  | _, [] => []
  | r, c :: rest => if r = .code then c :: outside (r.next c) rest else outside (r.next c) rest

/-! ### Brackets -/

/-- In no beginning of the text more brackets are closed than were opened in it or, as `depth` of
them, before it. -/
def Nested (depth : Nat) (s : List Char) : Prop :=
  ∀ a ∈ s.inits, a.countP (· ∈ [')', ']']) ≤ depth + a.countP (· ∈ ['(', '['])

instance (depth : Nat) (s : List Char) : Decidable (Nested depth s) :=
  inferInstanceAs (Decidable (∀ a ∈ s.inits,
    a.countP (· ∈ [')', ']']) ≤ depth + a.countP (· ∈ ['(', '['])))

namespace Nested

theorem of_cons (h : Nested depth (c :: s)) {a : List Char} (ha : a ∈ s.inits) :
    (c :: a).countP (· ∈ [')', ']']) ≤ depth + (c :: a).countP (· ∈ ['(', '[']) :=
  h (c :: a) ((List.mem_inits _ _).2 (List.cons_prefix_cons.2 ⟨rfl, (List.mem_inits _ _).1 ha⟩))

theorem opened (h : Nested depth (c :: s)) (hc : c = '(' ∨ c = '[') : Nested (depth + 1) s := by
  intro a ha
  have hle := h.of_cons ha
  rcases hc with rfl | rfl <;> simp at hle ⊢ <;> omega

theorem closed (h : Nested depth (c :: s)) (hc : c = ')' ∨ c = ']') :
    ∃ d, depth = d + 1 ∧ Nested d s := by
  cases depth with
  | zero =>
    have hle := h.of_cons ((List.mem_inits _ _).2 List.nil_prefix)
    rcases hc with rfl | rfl <;> exact absurd hle (by decide)
  | succ d =>
    refine ⟨d, rfl, fun a ha => ?_⟩
    have hle := h.of_cons ha
    rcases hc with rfl | rfl <;> simp at hle ⊢ <;> omega

theorem tail (h : Nested depth (c :: s)) (hopen : ¬ (c = '(' ∨ c = '['))
    (hclose : ¬ (c = ')' ∨ c = ']')) : Nested depth s := by
  intro a ha
  have hle := h.of_cons ha
  simpa [hopen, hclose] using hle

end Nested

/-! ### The scan in parentheses -/

/-- The second character of an operator is not the end of anything. -/
theorem operatorAt_eq_some {op : String} (h : operatorAt (c :: rest) = some op) :
    op.length - 1 = 0 ∨ op.length - 1 = 1 ∧ ∃ d s, rest = d :: s ∧ (d = '*' ∨ d = '=') := by
  have hoperators : ∀ op ∈ operators, op.length - 1 = 0 ∨
      op.length - 1 = 1 ∧ (op.toList.drop 1 = ['*'] ∨ op.toList.drop 1 = ['=']) := by
    decide
  obtain ⟨hmem, tail, hspelled, hprefix⟩ := of_operatorAt h
  have hdrop : op.toList.drop 1 = tail := by
    rw [hspelled]
    rfl
  rw [← hdrop] at hprefix
  rcases hoperators op hmem with hone | ⟨htwo, hsecond | hsecond⟩
  · exact .inl hone
  · rw [hsecond] at hprefix
    obtain ⟨s, rfl⟩ := hprefix
    exact .inr ⟨htwo, '*', s, rfl, .inl rfl⟩
  · rw [hsecond] at hprefix
    obtain ⟨s, rfl⟩ := hprefix
    exact .inr ⟨htwo, '=', s, rfl, .inr rfl⟩

/-- How the scan of a text in parentheses stands when the text goes on with `rest`: it knows the
region, and it is inside the parentheses and `depth` more brackets. Behind an operator of two
characters the second one is left to be passed over. -/
inductive Follows (depth : Nat) : Scan → Region → List Char → Prop where
  | code (next : Bool) (rest : List Char) :
    Follows depth { depth := (depth + 1 : Nat), operandNext := next } .code rest
  | operator (next : Bool) {d : Char} (hd : d = '*' ∨ d = '=') (rest : List Char) :
    Follows depth { depth := (depth + 1 : Nat), operandNext := next, skip := 1 } .code (d :: rest)
  | literal (q : Char) (next : Bool) (rest : List Char) :
    Follows depth { quote := some q, depth := (depth + 1 : Nat), operandNext := next } (.literal q)
      rest
  | hidden (q : Char) (next : Bool) (rest : List Char) :
    Follows depth { quote := some q, depth := (depth + 1 : Nat), operandNext := next, skip := 1 }
      (.hidden q) rest

/-- Outside literals a step finds no operator that counts. -/
theorem stepPlain_follows (next : Bool) (h : Nested depth (c :: outside (Region.code.next c) t)) :
    let r := Scan.stepPlain { depth := (depth + 1 : Nat), operandNext := next } c rest
    r.2 = none ∧ ∃ depth', Follows depth' r.1 (Region.code.next c) rest ∧
      Nested depth' (outside (Region.code.next c) t) := by
  intro r
  by_cases hquote : c = '"' ∨ c = '\''
  · have hr : r = ({ quote := some c, depth := (depth + 1 : Nat), operandNext := false }, none) :=
      if_pos hquote
    have hnext : Region.code.next c = .literal c := if_pos hquote
    rw [hnext] at h ⊢
    rw [hr]
    have htail : Nested depth (outside (.literal c) t) := by
      refine h.tail ?_ ?_ <;> rcases hquote with rfl | rfl <;> decide
    exact ⟨rfl, depth, .literal c false rest, htail⟩
  have hnext : Region.code.next c = .code := if_neg hquote
  rw [hnext] at h ⊢
  by_cases hopen : c = '(' ∨ c = '['
  · have hr : r = ({ depth := (depth + 1 + 1 : Nat) }, none) :=
      (if_neg hquote).trans (if_pos hopen)
    rw [hr]
    exact ⟨rfl, depth + 1, .code true rest, h.opened hopen⟩
  by_cases hclose : c = ')' ∨ c = ']'
  · obtain ⟨d, rfl, hd⟩ := h.closed hclose
    have hdepth : ((d + 1 + 1 : Nat) : Int) - 1 = (d + 1 : Nat) := by omega
    have hr : r = ({ depth := ((d + 1 + 1 : Nat) : Int) - 1, operandNext := false }, none) :=
      (if_neg hquote).trans ((if_neg hopen).trans (if_pos hclose))
    rw [hr, hdepth]
    exact ⟨rfl, d, .code false rest, hd⟩
  refine ⟨?_, depth, ?_, h.tail hopen hclose⟩
  all_goals
    simp only [r, Scan.stepPlain, if_neg hquote, if_neg hopen, if_neg hclose]
    split
  · rfl
  · split
    · rfl
    · rw [if_neg (by omega)]
  · exact .code next rest
  · split
    · exact .code false rest
    · next op hop =>
      rw [if_neg (by omega)]
      rcases operatorAt_eq_some hop with hskip | ⟨hskip, d, s, rfl, hd⟩
      · simp only [hskip]
        exact .code next rest
      · simp only [hskip]
        exact .operator next hd s

/-- No step finds an operator that counts, while the brackets nest. -/
theorem Follows.step {state : Scan} {r : Region} (h : Follows depth state r (c :: rest))
    (hnested : Nested depth (outside r (c :: t))) :
    (state.step c rest).2 = none ∧ ∃ depth', Follows depth' (state.step c rest).1 (r.next c) rest ∧
      Nested depth' (outside (r.next c) t) := by
  cases h with
  | code next => exact stepPlain_follows next hnested
  | operator next hd =>
    -- the scan passes over the character, and it is neither a quote nor a bracket
    have hnext : Region.code.next c = .code := if_neg (by rcases hd with rfl | rfl <;> decide)
    rw [outside, if_pos rfl, hnext] at hnested
    have htail : Nested depth (outside .code t) := by
      refine hnested.tail ?_ ?_ <;> rcases hd with rfl | rfl <;> decide
    rw [hnext]
    exact ⟨rfl, depth, .code next rest, htail⟩
  | literal q next =>
    rw [outside, if_neg (by rintro ⟨⟩)] at hnested
    refine ⟨rfl, depth, ?_, hnested⟩
    change Follows depth (Scan.stepQuoted _ q c) ((Region.literal q).next c) rest
    rw [Scan.stepQuoted, Region.next]
    split
    · exact .hidden q next rest
    · split
      · exact .code next rest
      · exact .literal q next rest
  | hidden q next =>
    rw [outside, if_neg (by rintro ⟨⟩)] at hnested
    exact ⟨rfl, depth, .literal q next rest, hnested⟩

theorem scanFrom_of_step {state : Scan} (h : (state.step c rest).2 = none) (offset : Nat) :
    scanFrom offset state (c :: rest) = scanFrom (offset + 1) (state.step c rest).1 rest := by
  rw [scanFrom]
  rcases hstep : state.step c rest with ⟨state', found⟩
  rw [hstep] at h
  obtain rfl : found = none := h
  rfl

theorem scan_nested {state : Scan} {r : Region} (h : Follows depth state r (t ++ [')']))
    (hnested : Nested depth (outside r t)) (offset : Nat) :
    scanFrom offset state (t ++ [')']) = [] := by
  induction t generalizing offset state r depth with
  | nil =>
    -- only the parenthesis that closes the whole is left, or it belongs to a literal without an end
    have hnone : (state.step ')' []).2 = none := by
      cases h with
      | code | literal | hidden => rfl
      | operator next hd => exact absurd hd (by decide)
    exact scanFrom_of_step hnone offset
  | cons c t ih =>
    have hcons : Follows depth state r (c :: (t ++ [')'])) := h
    obtain ⟨hnone, depth', hfollows, hnested'⟩ := hcons.step hnested
    exact (scanFrom_of_step hnone offset).trans (ih hfollows hnested' _)

/-- Where the brackets outside literals nest, no operator counts in parentheses around the text. -/
theorem topLevelOperators_parenthesized (h : Nested 0 (outside .code t)) :
    topLevelOperators ('(' :: (t ++ [')'])) = [] :=
  scan_nested (.code true _) h 1

end ScriptBlocks.Expression
