import ScriptBlocks.Proofs.Expression.Grammar
import ScriptBlocks.Proofs.Pattern.Span

/-!
# The texts of expression forms

What a text that an expression form matches as a whole looks like. A call is matched down to the
digits in it and ends where its parenthesis closes, so no shorter piece of its text is a call, and
there is no operator in it. Arithmetic and comparisons are matched wherever one of their operators
has something on either side; where it counts is left to the reader of the fields.

## Main statements

* `Dialect.spans_pointLed` and the like — the pieces that the forms match
* `Dialect.spans_call`, `Dialect.spans_mathArithmetic_mem` and the like — what tells them apart
-/

namespace ScriptBlocks.Dialect

open Pattern

variable {s before rest : List Char} {groups : List (Nat × List Char)}

/-- A run of at least one character of a class. -/
def IsRun (test : Char → Bool) (s : List Char) : Prop := s ≠ [] ∧ ∀ c ∈ s, test c = true

/-- The characters that operators are written with. -/
def operatorChars : List Char := ['*', '=', '!', '<', '>', '+', '-', '/']

theorem not_mem_operatorChars_of_isPlain {c : Char} (h : Text.isPlain c = true) :
    c ∉ ')' :: operatorChars := by
  obtain ⟨hdelimiter, -⟩ := Text.isPlain_iff.1 h
  intro hmem
  have hsub : ∀ c ∈ ')' :: operatorChars, c ∈ Text.delimiters := by decide
  exact hdelimiter (hsub c hmem)

theorem not_mem_operatorChars_of_isWhite {c : Char} (h : Text.isWhite c = true) :
    c ∉ ')' :: operatorChars := by
  intro hmem
  have hwhite : ∀ c ∈ ')' :: operatorChars, Text.isWhite c = false := by decide
  exact nomatch h.symm.trans (hwhite c hmem)

/-- A name as the patterns have it: words and constants of the dialect are names as well. -/
def IsIdentifier (s : List Char) : Prop := ∃ c cs, s = c :: cs ∧ (c.isAlpha || c = '_') = true ∧
  ∀ d ∈ cs, Text.isWord d = true

theorem IsIdentifier.isWord (h : IsIdentifier s) : ∀ c ∈ s, Text.isWord c = true := by
  obtain ⟨c, cs, rfl, hc, hcs⟩ := h
  refine List.forall_mem_cons.2 ⟨?_, hcs⟩
  rw [Bool.or_eq_true] at hc
  rcases hc with hc | hc
  · exact Text.isWord_of_isAlpha hc
  · rw [of_decide_eq_true hc]
    decide

/-! ### Runs in a text -/

/-- Where runs of a class end, what stands on both sides agrees. -/
theorem append_inj_of_run {test : Char → Bool} {x y a b : List Char}
    (hx : ∀ c ∈ x, test c = true) (hy : ∀ c ∈ y, test c = true)
    (ha : ∀ c, a.head? = some c → test c = false) (hb : ∀ c, b.head? = some c → test c = false)
    (h : x ++ a = y ++ b) : x = y ∧ a = b := by
  induction x generalizing y with
  | nil =>
    cases y with
    | nil => exact ⟨rfl, h⟩
    | cons d y =>
      have hd := hy d List.mem_cons_self
      rw [List.nil_append] at h
      exact nomatch hd.symm.trans (ha d (by rw [h]; rfl))
  | cons c x ih =>
    obtain ⟨hc, hx⟩ := List.forall_mem_cons.1 hx
    cases y with
    | nil =>
      rw [List.nil_append] at h
      exact nomatch hc.symm.trans (hb c (by rw [← h]; rfl))
    | cons d y =>
      obtain ⟨hd, hy'⟩ := List.forall_mem_cons.1 hy
      obtain ⟨rfl, htail⟩ := List.cons.inj h
      obtain ⟨rfl, rfl⟩ := ih hx hy' htail
      exact ⟨rfl, rfl⟩

/-- A run of a class ends in front of a character outside the class. -/
theorem head?_cons_eq_false {test : Char → Bool} {c : Char} (hc : test c = false)
    (a : List Char) : ∀ d, (c :: a).head? = some d → test d = false := by
  intro d hd
  rwa [← Option.some.inj hd]

/-- A text with a character only at its end has no shorter piece with that character at the end. -/
theorem eq_nil_of_concat_append {u p : List Char} {c : Char} (hu : c ∉ u)
    (h : u ++ [c] = p ++ [c] ++ rest) : rest = [] := by
  rcases List.eq_nil_or_concat rest with hrest | ⟨r, d, rfl⟩
  · exact hrest
  · rw [List.concat_eq_append, ← List.append_assoc] at h
    have hinit := List.append_inj_left' h rfl
    exact absurd (hinit ▸ List.mem_append_left _ (List.mem_append_right _ List.mem_cons_self)) hu

/-! ### Calls -/

theorem spans_digits : digits.Spans before s rest groups ↔
    IsRun Text.isDigit s ∧ groups = [] := by
  rw [digits, spans_atLeastOne, IsRun, and_assoc]

theorem spans_comma : comma.Spans before s rest groups ↔
    ∃ bl, s = ',' :: bl ∧ (∀ c ∈ bl, Text.isWhite c = true) ∧ groups = [] := by
  constructor
  · rintro ⟨u, bl, gs, hs, rfl, rfl, hu, hbl, rfl⟩
    obtain ⟨rfl, rfl⟩ := spans_lit.1 hu
    exact ⟨bl, rfl, hbl, rfl⟩
  · rintro ⟨bl, rfl, hbl, rfl⟩
    exact ⟨[','], bl, [], [], rfl, rfl, spans_lit.2 ⟨rfl, rfl⟩, hbl, rfl⟩

theorem spans_pointLed : pointLed.pattern.Spans before s rest groups ↔ ∃ x bl y,
    s = "led.point(".toList ++ (x ++ (',' :: (bl ++ (y ++ [')'])))) ∧
      groups = [(1, x), (2, y)] ∧ IsRun Text.isDigit x ∧ (∀ c ∈ bl, Text.isWhite c = true) ∧
      IsRun Text.isDigit y := by
  change (all ["led.point", "(", .group 1 .digits, comma, .group 2 .digits, ")"]).Spans
    before s rest groups ↔ _
  have hopen : "led.point(".toList = "led.point".toList ++ "(".toList := by decide
  simp only [spans_lit_cons, spans_group_cons, spans_digits, spans_all_nil,
    spans_all_cons (p := comma), spans_comma, hopen, List.append_assoc]
  constructor
  · rintro ⟨_, rfl, _, rfl, x, _, _, _, rfl, rfl, ⟨hx, rfl⟩, _, _, _, _, rfl, rfl,
      ⟨bl, rfl, hbl, rfl⟩, y, _, _, _, rfl, rfl, ⟨hy, rfl⟩, _, rfl, rfl, rfl⟩
    exact ⟨x, bl, y, rfl, rfl, hx, hbl, hy⟩
  · rintro ⟨x, bl, y, rfl, rfl, hx, hbl, hy⟩
    exact ⟨_, rfl, _, rfl, x, _, [], _, rfl, rfl, ⟨hx, rfl⟩, ',' :: bl, _, [], _, rfl, rfl,
      ⟨bl, rfl, hbl, rfl⟩, y, _, [], [], rfl, rfl, ⟨hy, rfl⟩, [], rfl, rfl, rfl⟩

theorem spans_buttonName : (anyOf ["A", "B", "AB"]).Spans before s rest groups ↔
    (s = ['A'] ∨ s = ['B'] ∨ s = ['A', 'B']) ∧ groups = [] := by
  change (lit "A").Spans before s rest groups ∨ (lit "B").Spans before s rest groups ∨
    (lit "AB").Spans before s rest groups ↔ _
  rw [spans_lit, spans_lit, spans_lit, or_and_right, or_and_right]
  exact Iff.rfl

theorem spans_buttonIsPressed : buttonIsPressed.pattern.Spans before s rest groups ↔
    ∃ a which b, s = "input.button_is_pressed(".toList ++
        (a ++ ("Button.".toList ++ (which ++ (b ++ [')'])))) ∧ groups = [(1, which)] ∧
      (∀ c ∈ a, Text.isWhite c = true) ∧ (which = ['A'] ∨ which = ['B'] ∨ which = ['A', 'B']) ∧
      ∀ c ∈ b, Text.isWhite c = true := by
  change (all ["input.button_is_pressed(", .many Text.isWhite, "Button.",
    .group 1 (.anyOf ["A", "B", "AB"]), .many Text.isWhite, ")"]).Spans before s rest groups ↔ _
  simp only [spans_lit_cons, spans_group_cons, spans_many_cons, spans_buttonName, spans_all_nil]
  constructor
  · rintro ⟨_, rfl, a, _, rfl, ha, _, rfl, which, _, _, _, rfl, rfl, ⟨hwhich, rfl⟩, b, _, rfl, hb,
      _, rfl, rfl, rfl⟩
    exact ⟨a, which, b, rfl, rfl, ha, hwhich, hb⟩
  · rintro ⟨a, which, b, rfl, rfl, ha, hwhich, hb⟩
    exact ⟨_, rfl, a, _, rfl, ha, _, rfl, which, _, [], [], rfl, rfl, ⟨hwhich, rfl⟩, b, _, rfl, hb,
      [], rfl, rfl, rfl⟩

theorem spans_accelerometer : accelerometer.pattern.Spans before s rest groups ↔
    ∃ axis, s = "accelerometer.get_".toList ++ (axis :: ['(', ')']) ∧ groups = [(1, [axis])] ∧
      (axis = 'x' ∨ axis = 'y' ∨ axis = 'z') := by
  change (all ["accelerometer.get_", .group 1 (.one fun c => c = 'x' || c = 'y' || c = 'z'),
    "()"]).Spans before s rest groups ↔ _
  simp only [spans_lit_cons, spans_group_cons, Spans, spans_all_nil, Bool.or_eq_true,
    decide_eq_true_eq]
  constructor
  · rintro ⟨_, rfl, _, _, _, _, rfl, rfl, ⟨axis, haxis, rfl, rfl⟩, _, rfl, rfl, rfl⟩
    exact ⟨axis, rfl, rfl, or_assoc.1 haxis⟩
  · rintro ⟨axis, rfl, rfl, haxis⟩
    exact ⟨_, rfl, [axis], _, [], [], rfl, rfl, ⟨axis, or_assoc.2 haxis, rfl, rfl⟩, [], rfl, rfl,
      rfl⟩

theorem spans_pinRead : pinRead.pattern.Spans before s rest groups ↔
    ∃ digits, s = "pin".toList ++ (digits ++ ".read_analog()".toList) ∧ groups = [(1, digits)] ∧
      IsRun Text.isDigit digits := by
  change (all ["pin", .group 1 .digits, ".read_analog()"]).Spans before s rest groups ↔ _
  simp only [spans_lit_cons, spans_group_cons, spans_digits, spans_all_nil]
  constructor
  · rintro ⟨_, rfl, digits, _, _, _, rfl, rfl, ⟨hdigits, rfl⟩, _, rfl, rfl, rfl⟩
    rw [List.append_nil]
    exact ⟨digits, rfl, rfl, hdigits⟩
  · rintro ⟨digits, rfl, rfl, hdigits⟩
    refine ⟨_, rfl, digits, _, [], [], rfl, rfl, ⟨hdigits, rfl⟩, [], ?_, rfl, rfl⟩
    rw [List.append_nil]

/-! ### Words and numbers -/

theorem spans_logicBoolean : logicBoolean.pattern.Spans before s rest groups ↔
    before = [] ∧ rest = [] ∧ (s = "True".toList ∨ s = "False".toList) ∧ groups = [(1, s)] := by
  change (all [.atStart, .group 1 (.alt "True" "False"), .atEnd]).Spans before s rest groups ↔ _
  simp only [spans_atStart_cons, spans_group_cons, Spans, spans_lit, spans_atEnd]
  constructor
  · rintro ⟨rfl, u, _, gs, _, rfl, rfl, hu, rfl, rfl, rfl⟩
    rw [List.append_nil]
    rcases hu with ⟨rfl, rfl⟩ | ⟨rfl, rfl⟩
    · exact ⟨rfl, rfl, .inl rfl, rfl⟩
    · exact ⟨rfl, rfl, .inr rfl, rfl⟩
  · rintro ⟨rfl, rfl, hs, rfl⟩
    refine ⟨rfl, s, [], [], [], (List.append_nil s).symm, rfl, ?_, rfl, rfl, rfl⟩
    exact hs.imp (fun h => ⟨h, rfl⟩) fun h => ⟨h, rfl⟩

theorem spans_namePattern : namePattern.Spans before s rest groups ↔
    IsIdentifier s ∧ groups = [] := by
  constructor
  · rintro ⟨_, cs, _, _, rfl, rfl, ⟨c, hc, rfl, rfl⟩, hcs, rfl⟩
    exact ⟨⟨c, cs, rfl, hc, hcs⟩, rfl⟩
  · rintro ⟨⟨c, cs, rfl, hc, hcs⟩, rfl⟩
    exact ⟨[c], cs, [], [], rfl, rfl, ⟨c, hc, rfl, rfl⟩, hcs, rfl⟩

theorem spans_variablesGet : variablesGet.pattern.Spans before s rest groups ↔
    before = [] ∧ rest = [] ∧ IsIdentifier s ∧ groups = [] := by
  change (all [.atStart, namePattern, .atEnd]).Spans before s rest groups ↔ _
  simp only [spans_atStart_cons, spans_all_cons (p := namePattern), spans_namePattern, spans_atEnd]
  constructor
  · rintro ⟨rfl, _, _, _, _, rfl, rfl, ⟨hname, rfl⟩, rfl, rfl, rfl⟩
    rw [List.append_nil]
    exact ⟨rfl, rfl, hname, rfl⟩
  · rintro ⟨rfl, rfl, hname, rfl⟩
    exact ⟨rfl, s, [], [], [], (List.append_nil s).symm, rfl, ⟨hname, rfl⟩, rfl, rfl, rfl⟩

theorem spans_sign : (optional "-").Spans before s rest groups ↔
    (s = ['-'] ∨ s = []) ∧ groups = [] := by
  rw [spans_optional, spans_lit, or_and_right]
  exact Iff.rfl

theorem spans_places : (optional (all [".", digits])).Spans before s rest groups ↔
    ((∃ ds, s = '.' :: ds ∧ IsRun Text.isDigit ds) ∨ s = []) ∧ groups = [] := by
  rw [spans_optional, spans_lit_cons, or_and_right]
  refine or_congr ⟨?_, ?_⟩ Iff.rfl
  · rintro ⟨ds, rfl, h⟩
    obtain ⟨hds, rfl⟩ := spans_digits.1 h
    exact ⟨⟨ds, rfl, hds⟩, rfl⟩
  · rintro ⟨⟨ds, rfl, hds⟩, rfl⟩
    exact ⟨ds, rfl, spans_digits.2 ⟨hds, rfl⟩⟩

theorem spans_mathNumber : mathNumber.pattern.Spans before s rest groups ↔
    before = [] ∧ rest = [] ∧ groups = [] ∧ ∃ sign whole places, s = sign ++ (whole ++ places) ∧
      (sign = ['-'] ∨ sign = []) ∧ IsRun Text.isDigit whole ∧
      ((∃ ds, places = '.' :: ds ∧ IsRun Text.isDigit ds) ∨ places = []) := by
  change (all [.atStart, signedPattern, .atEnd]).Spans before s rest groups ↔ _
  simp only [spans_atStart_cons, spans_all_cons (p := signedPattern), spans_atEnd]
  constructor
  · rintro ⟨rfl, _, _, _, _, rfl, rfl, ⟨sign, _, _, _, rfl, rfl, hsign, whole, places, _, _, rfl,
      rfl, hwhole, hplaces⟩, rfl, rfl, rfl⟩
    obtain ⟨hminus, rfl⟩ := spans_sign.1 hsign
    obtain ⟨hdigits, rfl⟩ := spans_digits.1 hwhole
    obtain ⟨hpoint, rfl⟩ := spans_places.1 hplaces
    rw [List.append_nil (sign ++ _)]
    exact ⟨rfl, rfl, rfl, sign, whole, places, rfl, hminus, hdigits, hpoint⟩
  · rintro ⟨rfl, rfl, rfl, sign, whole, places, rfl, hsign, hwhole, hplaces⟩
    exact ⟨rfl, sign ++ (whole ++ places), [], [], [], (List.append_nil _).symm, rfl,
      ⟨sign, whole ++ places, [], [], rfl, rfl, spans_sign.2 ⟨hsign, rfl⟩, whole, places, [], [],
        rfl, rfl, spans_digits.2 ⟨hwhole, rfl⟩, spans_places.2 ⟨hplaces, rfl⟩⟩, rfl, rfl, rfl⟩

/-! ### Operators -/

theorem spans_mathArithmetic : mathArithmetic.pattern.Spans before s rest groups ↔
    before = [] ∧ rest = [] ∧ groups = [] ∧ ∃ u a symbol b v, s = u ++ (a ++ (symbol ++ (b ++ v))) ∧
      IsRun inLine u ∧ (∀ c ∈ a, Text.isWhite c = true) ∧
      (symbol = ['*', '*'] ∨ symbol = ['-'] ∨ symbol = ['+'] ∨ symbol = ['*'] ∨ symbol = ['/']) ∧
      (∀ c ∈ b, Text.isWhite c = true) ∧ IsRun inLine v := by
  have hsymbol {b p r g} : (Pattern.alt "**" (.one fun c => c = '-' || c = '+' || c = '*' ||
      c = '/')).Spans b p r g ↔
      (p = ['*', '*'] ∨ p = ['-'] ∨ p = ['+'] ∨ p = ['*'] ∨ p = ['/']) ∧ g = [] := by
    simp only [Spans, spans_lit, Bool.or_eq_true, decide_eq_true_eq]
    constructor
    · rintro (⟨rfl, rfl⟩ | ⟨c, ((rfl | rfl) | rfl) | rfl, rfl, rfl⟩) <;> simp
    · rintro ⟨rfl | rfl | rfl | rfl | rfl, rfl⟩ <;> simp
  change (all [.atStart, .atLeastOne inLine, .many Text.isWhite,
    .alt "**" (.one fun c => c = '-' || c = '+' || c = '*' || c = '/'), .many Text.isWhite,
    .atLeastOne inLine, .atEnd]).Spans before s rest groups ↔ _
  simp only [spans_atStart_cons, spans_atLeastOne_cons, spans_many_cons, hsymbol,
    spans_all_cons (p := .alt _ _), spans_atEnd]
  constructor
  · rintro ⟨rfl, u, _, rfl, hne, hu, a, _, rfl, ha, symbol, _, _, _, rfl, rfl, ⟨hsymbol, rfl⟩, b, _,
      rfl, hb, v, _, rfl, hne', hv, rfl, rfl, rfl⟩
    rw [List.append_nil v]
    exact ⟨rfl, rfl, rfl, u, a, symbol, b, v, rfl, ⟨hne, hu⟩, ha, hsymbol, hb, hne', hv⟩
  · rintro ⟨rfl, rfl, rfl, u, a, symbol, b, v, rfl, ⟨hne, hu⟩, ha, hsymbol, hb, hne', hv⟩
    exact ⟨rfl, u, _, rfl, hne, hu, a, _, rfl, ha, symbol, _, [], [], rfl, rfl, ⟨hsymbol, rfl⟩, b, v,
      rfl, hb, v, [], (List.append_nil v).symm, hne', hv, rfl, rfl, rfl⟩

theorem spans_comparisonSymbol :
    (anyOf ["==", "!=", "<=", ">=", "<", ">"]).Spans before s rest groups ↔
      (s = ['=', '='] ∨ s = ['!', '='] ∨ s = ['<', '='] ∨ s = ['>', '='] ∨ s = ['<'] ∨ s = ['>']) ∧
        groups = [] := by
  change (lit "==").Spans before s rest groups ∨ (lit "!=").Spans before s rest groups ∨
    (lit "<=").Spans before s rest groups ∨ (lit ">=").Spans before s rest groups ∨
    (lit "<").Spans before s rest groups ∨ (lit ">").Spans before s rest groups ↔ _
  simp only [spans_lit, or_and_right]
  exact Iff.rfl

theorem spans_logicCompare : logicCompare.pattern.Spans before s rest groups ↔
    before = [] ∧ rest = [] ∧ ∃ u a symbol b v, s = u ++ (a ++ (symbol ++ (b ++ v))) ∧
      groups = [(1, u), (2, symbol), (3, v)] ∧ IsRun inLine u ∧ (∀ c ∈ a, Text.isWhite c = true) ∧
      (symbol = ['=', '='] ∨ symbol = ['!', '='] ∨ symbol = ['<', '='] ∨ symbol = ['>', '='] ∨
        symbol = ['<'] ∨ symbol = ['>']) ∧
      (∀ c ∈ b, Text.isWhite c = true) ∧ IsRun inLine v := by
  have hoperand {b p r g} : (atLeastOne inLine).Spans b p r g ↔ IsRun inLine p ∧ g = [] := by
    rw [spans_atLeastOne, IsRun, and_assoc]
  change (all [.atStart, .group 1 (.atLeastOne inLine), .many Text.isWhite,
    .group 2 (.anyOf ["==", "!=", "<=", ">=", "<", ">"]), .many Text.isWhite,
    .group 3 (.atLeastOne inLine), .atEnd]).Spans before s rest groups ↔ _
  simp only [spans_atStart_cons, spans_group_cons, spans_many_cons, spans_comparisonSymbol,
    hoperand, spans_atEnd]
  constructor
  · rintro ⟨rfl, u, _, _, _, rfl, rfl, ⟨hu, rfl⟩, a, _, rfl, ha, symbol, _, _, _, rfl, rfl,
      ⟨hsymbol, rfl⟩, b, _, rfl, hb, v, _, _, _, rfl, rfl, ⟨hv, rfl⟩, rfl, rfl, rfl⟩
    rw [List.append_nil v]
    exact ⟨rfl, rfl, u, a, symbol, b, v, rfl, rfl, hu, ha, hsymbol, hb, hv⟩
  · rintro ⟨rfl, rfl, u, a, symbol, b, v, rfl, rfl, hu, ha, hsymbol, hb, hv⟩
    exact ⟨rfl, u, _, [], _, rfl, rfl, ⟨hu, rfl⟩, a, _, rfl, ha, symbol, _, [], _, rfl, rfl,
      ⟨hsymbol, rfl⟩, b, _, rfl, hb, v, [], [], [], (List.append_nil v).symm, rfl, ⟨hv, rfl⟩, rfl,
      rfl, rfl⟩

/-! ### What tells the forms apart -/

theorem head?_of_spans_text (h : text.pattern.Spans before s rest groups) :
    s.head? = some '"' ∨ s.head? = some '\'' := by
  change (all ["\"", .group 1 (.many (· ≠ '"')), "\""]).Spans before s rest groups ∨
    (all ["'", .group 2 (.many (· ≠ '\'')), "'"]).Spans before s rest groups at h
  rw [spans_lit_cons, spans_lit_cons] at h
  rcases h with ⟨v, rfl, -⟩ | ⟨v, rfl, -⟩
  · exact .inl rfl
  · exact .inr rfl

/-- The forms of calls. -/
def calls : List Form := [pointLed, buttonIsPressed, accelerometer, pinRead]

/-- A call ends where its parenthesis closes, and there is no operator in it. -/
theorem spans_call {f : Form} (hf : f ∈ calls) (h : f.pattern.Spans before s rest groups) :
    ∃ u, s = u ++ [')'] ∧ ∀ c ∈ u, c ∉ ')' :: operatorChars := by
  have hdigits {x : List Char} (hx : IsRun Text.isDigit x) : ∀ c ∈ x, c ∉ ')' :: operatorChars :=
    fun c hc => not_mem_operatorChars_of_isPlain (Text.isPlain_of_isDigit (hx.2 c hc))
  have hwhite {a : List Char} (ha : ∀ c ∈ a, Text.isWhite c = true) :
      ∀ c ∈ a, c ∉ ')' :: operatorChars :=
    fun c hc => not_mem_operatorChars_of_isWhite (ha c hc)
  simp only [calls, List.mem_cons, List.not_mem_nil, or_false] at hf
  rcases hf with rfl | rfl | rfl | rfl
  · obtain ⟨x, bl, y, rfl, -, hx, hbl, hy⟩ := spans_pointLed.1 h
    refine ⟨"led.point(".toList ++ (x ++ (',' :: (bl ++ y))), ?_, ?_⟩
    · simp only [List.append_assoc, List.cons_append]
    · simp only [List.forall_mem_append, List.forall_mem_cons]
      exact ⟨by decide, hdigits hx, by decide, hwhite hbl, hdigits hy⟩
  · obtain ⟨a, which, b, rfl, -, ha, hwhich, hb⟩ := spans_buttonIsPressed.1 h
    refine ⟨"input.button_is_pressed(".toList ++ (a ++ ("Button.".toList ++ (which ++ b))), ?_, ?_⟩
    · simp only [List.append_assoc]
    · simp only [List.forall_mem_append]
      refine ⟨by decide, hwhite ha, by decide, ?_, hwhite hb⟩
      rcases hwhich with rfl | rfl | rfl <;> decide
  · obtain ⟨axis, rfl, -, haxis⟩ := spans_accelerometer.1 h
    refine ⟨"accelerometer.get_".toList ++ (axis :: ['(']), ?_, ?_⟩
    · simp only [List.append_assoc, List.cons_append, List.nil_append]
    · rcases haxis with rfl | rfl | rfl <;> decide
  · obtain ⟨digits, rfl, -, hx⟩ := spans_pinRead.1 h
    refine ⟨"pin".toList ++ (digits ++ ".read_analog(".toList), ?_, ?_⟩
    · have hend : ".read_analog()".toList = ".read_analog(".toList ++ [')'] := by decide
      rw [hend]
      simp only [List.append_assoc]
    · simp only [List.forall_mem_append]
      exact ⟨by decide, hdigits hx, by decide⟩

/-- A comparison has one of the characters of its operator in it. -/
theorem spans_logicCompare_mem (h : logicCompare.pattern.Spans before s rest groups) :
    ∃ c ∈ s, c ∈ ['=', '!', '<', '>'] := by
  obtain ⟨-, -, u, a, symbol, b, v, rfl, -, -, -, hsymbol, -⟩ := spans_logicCompare.1 h
  have hmem : ∃ c ∈ symbol, c ∈ ['=', '!', '<', '>'] := by
    rcases hsymbol with rfl | rfl | rfl | rfl | rfl | rfl <;> decide
  obtain ⟨c, hc, hoperator⟩ := hmem
  refine ⟨c, ?_, hoperator⟩
  exact List.mem_append_right _ (List.mem_append_right _ (List.mem_append_left _ hc))

/-- Arithmetic has an operator behind its first character. -/
theorem spans_mathArithmetic_mem (h : mathArithmetic.pattern.Spans before s rest groups) :
    ∃ c ∈ s.tail, c ∈ operatorChars := by
  obtain ⟨-, -, -, u, a, symbol, b, v, rfl, hu, -, hsymbol, -⟩ := spans_mathArithmetic.1 h
  have hmem : ∃ c ∈ symbol, c ∈ operatorChars := by
    rcases hsymbol with rfl | rfl | rfl | rfl | rfl <;> decide
  obtain ⟨c, hc, hoperator⟩ := hmem
  cases u with
  | nil => exact absurd rfl hu.1
  | cons d u =>
    refine ⟨c, ?_, hoperator⟩
    exact List.mem_append_right _ (List.mem_append_right _ (List.mem_append_left _ hc))

end ScriptBlocks.Dialect
