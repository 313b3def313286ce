import ScriptBlocks.Proofs.Dialect.Shape

/-!
# The text of an assignment

A line that sets a name to a value, or changes it by one, is taken by the form of just that: the
signs in front of the value tell the two apart. Both forms come before all others.

## Main definitions

* `Dialect.Setting` — assignment, and change by an amount
* `Dialect.Setting.line` — the line for a name and the text of a value

## Main statements

* `Dialect.Setting.firstMatch_line` — the line is read as its name and the text of its value
-/

namespace ScriptBlocks.Dialect

open Expression Pattern

variable {s before rest name t : List Char} {groups : List (Nat × List Char)}

/-- The statements that give a variable a value. -/
inductive Setting where
  | assign
  | change
deriving DecidableEq

namespace Setting

def form : Setting → Form
  | assign => variablesSet
  | change => mathChange

/-- The slot for the value. -/
def slot : Setting → String
  | assign => "VALUE"
  | change => "DELTA"

/-- The capability that the slot checks. -/
def check : Setting → Option Capability
  | assign => none
  | change => some .number

/-- The signs between the name and the value. -/
def mark : Setting → List Char
  | assign => ['=']
  | change => ['+', '=']

/-- The line that sets a name to the value with this text. -/
def line (k : Setting) (name t : List Char) : List Char := name ++ ([' '] ++ (k.mark ++ (' ' :: t)))

/-- The signs are neither part of a name nor white space, and they end where a blank stands. -/
theorem mark_spec (k : Setting) : ∃ c cs, k.mark = c :: cs ∧
    Text.isWord c = false ∧ Text.isWhite c = false := by
  cases k
  · exact ⟨'=', [], rfl, by decide⟩
  · exact ⟨'+', ['='], rfl, by decide⟩

end Setting

theorem spans_mathChange : mathChange.pattern.Spans before s rest groups ↔
    before = [] ∧ rest = [] ∧ ∃ name a b v, s = name ++ (a ++ ('+' :: '=' :: (b ++ v))) ∧
      groups = [(1, name), (2, v)] ∧ IsIdentifier name ∧ (∀ c ∈ a, Text.isWhite c = true) ∧
      (∀ c ∈ b, Text.isWhite c = true) ∧ IsRun inLine v := by
  have hvalue {b p r g} : (atLeastOne inLine).Spans b p r g ↔ IsRun inLine p ∧ g = [] := by
    rw [spans_atLeastOne, IsRun, and_assoc]
  change (all [.atStart, .group 1 namePattern, .many Text.isWhite, "+=", .many Text.isWhite,
    .group 2 (.atLeastOne inLine), .atEnd]).Spans before s rest groups ↔ _
  simp only [spans_atStart_cons, spans_group_cons, spans_many_cons, spans_lit_cons,
    spans_namePattern, hvalue, spans_atEnd]
  constructor
  · rintro ⟨rfl, name, _, _, _, rfl, rfl, ⟨hname, rfl⟩, a, _, rfl, ha, _, rfl, b, _, rfl, hb, v, _,
      _, _, rfl, rfl, ⟨hv, rfl⟩, rfl, rfl, rfl⟩
    rw [List.append_nil v]
    exact ⟨rfl, rfl, name, a, b, v, rfl, rfl, hname, ha, hb, hv⟩
  · rintro ⟨rfl, rfl, name, a, b, v, rfl, rfl, hname, ha, hb, hv⟩
    exact ⟨rfl, name, _, [], _, rfl, rfl, ⟨hname, rfl⟩, a, _, rfl, ha, _, rfl, b, v, rfl, hb, v, [],
      [], [], (List.append_nil v).symm, rfl, ⟨hv, rfl⟩, rfl, rfl, rfl⟩

theorem spans_variablesSet : variablesSet.pattern.Spans before s rest groups ↔
    before = [] ∧ rest = [] ∧ ∃ name a b v, s = name ++ (a ++ ('=' :: (b ++ v))) ∧
      groups = [(1, name), (2, v)] ∧ IsIdentifier name ∧ (∀ c ∈ a, Text.isWhite c = true) ∧
      (∀ c ∈ b, Text.isWhite c = true) ∧
      ∃ c cs, v = c :: cs ∧ c ≠ '=' ∧ ∀ d ∈ cs, inLine d = true := by
  have hvalue {b p r g} : (Pattern.seq (.one (· ≠ '=')) (.many inLine)).Spans b p r g ↔
      (∃ c cs, p = c :: cs ∧ c ≠ '=' ∧ ∀ d ∈ cs, inLine d = true) ∧ g = [] := by
    constructor
    · rintro ⟨_, cs, _, _, rfl, rfl, ⟨c, hc, rfl, rfl⟩, hcs, rfl⟩
      exact ⟨⟨c, cs, rfl, of_decide_eq_true hc, hcs⟩, rfl⟩
    · rintro ⟨⟨c, cs, rfl, hc, hcs⟩, rfl⟩
      exact ⟨[c], cs, [], [], rfl, rfl, ⟨c, decide_eq_true hc, rfl, rfl⟩, hcs, rfl⟩
  change (all [.atStart, .group 1 namePattern, .many Text.isWhite, "=", .many Text.isWhite,
    .group 2 (.seq (.one (· ≠ '=')) (.many inLine)), .atEnd]).Spans before s rest groups ↔ _
  simp only [spans_atStart_cons, spans_group_cons, spans_many_cons, spans_lit_cons,
    spans_namePattern, hvalue, spans_atEnd]
  constructor
  · rintro ⟨rfl, name, _, _, _, rfl, rfl, ⟨hname, rfl⟩, a, _, rfl, ha, _, rfl, b, _, rfl, hb, v, _,
      _, _, rfl, rfl, ⟨hv, rfl⟩, rfl, rfl, rfl⟩
    rw [List.append_nil v]
    exact ⟨rfl, rfl, name, a, b, v, rfl, rfl, hname, ha, hb, hv⟩
  · rintro ⟨rfl, rfl, name, a, b, v, rfl, rfl, hname, ha, hb, hv⟩
    exact ⟨rfl, name, _, [], _, rfl, rfl, ⟨hname, rfl⟩, a, _, rfl, ha, _, rfl, b, v, rfl, hb, v, [],
      [], [], (List.append_nil v).symm, rfl, ⟨hv, rfl⟩, rfl, rfl, rfl⟩

/-- A name ends where white space or a sign follows. -/
theorem isWord_head?_eq_false {a : List Char} {c : Char} (ha : ∀ c ∈ a, Text.isWhite c = true)
    (hc : Text.isWord c = false) (u : List Char) :
    ∀ d, (a ++ (c :: u)).head? = some d → Text.isWord d = false := by
  intro d hd
  cases a with
  | nil =>
    rw [← Option.some.inj hd]
    exact hc
  | cons e a =>
    rw [← Option.some.inj hd]
    cases hword : Text.isWord e with
    | false => rfl
    | true =>
      have hwhite := ha e List.mem_cons_self
      exact nomatch hwhite.symm.trans (Text.isPlain_iff.1 (Text.isPlain_of_isWord hword)).2

namespace Setting

/-- Both patterns split a line in the same way: a name, the signs and a value that does not extend
them. -/
theorem spans_pattern (k : Setting) (h : k.form.pattern.Spans before s rest groups) :
    before = [] ∧ rest = [] ∧ ∃ name a b v, s = name ++ (a ++ (k.mark ++ (b ++ v))) ∧
      groups = [(1, name), (2, v)] ∧ IsIdentifier name ∧ (∀ c ∈ a, Text.isWhite c = true) ∧
      ∀ c ∈ b, Text.isWhite c = true := by
  cases k with
  | assign =>
    obtain ⟨hbefore, hrest, name, a, b, v, hs, hgroups, hname, ha, hb, -⟩ := spans_variablesSet.1 h
    exact ⟨hbefore, hrest, name, a, b, v, hs, hgroups, hname, ha, hb⟩
  | change =>
    obtain ⟨hbefore, hrest, name, a, b, v, hs, hgroups, hname, ha, hb, -⟩ := spans_mathChange.1 h
    exact ⟨hbefore, hrest, name, a, b, v, hs, hgroups, hname, ha, hb⟩

/-- The pattern splits the line at the signs. The blank behind them is left to the value, which may
start with such a sign itself. -/
theorem spans_line (k : Setting) (hname : IsIdentifier name) (ht : ∀ c ∈ t, inLine c = true) :
    k.form.pattern.Spans [] (k.line name t) [] [(1, name), (2, ' ' :: t)] := by
  have hblank : ∀ c ∈ [' '], Text.isWhite c = true := by decide
  cases k with
  | assign =>
    exact spans_variablesSet.2 ⟨rfl, rfl, name, [' '], [], ' ' :: t, rfl, rfl, hname, hblank,
      nofun, ' ', t, rfl, by decide, ht⟩
  | change =>
    exact spans_mathChange.2 ⟨rfl, rfl, name, [' '], [], ' ' :: t, rfl, rfl, hname, hblank,
      nofun, List.cons_ne_nil _ _, List.forall_mem_cons.2 ⟨by decide, ht⟩⟩

/-- Where the name ends, and what follows it. -/
theorem line_inj {k : Setting} {name' a u : List Char} {c : Char} (hname : IsIdentifier name)
    (hname' : IsIdentifier name') (ha : ∀ c ∈ a, Text.isWhite c = true)
    (hc : Text.isWord c = false ∧ Text.isWhite c = false)
    (h : k.line name t = name' ++ (a ++ (c :: u))) :
    name = name' ∧ k.mark ++ (' ' :: t) = c :: u := by
  obtain ⟨d, ds, hmark, -, hd⟩ := k.mark_spec
  obtain ⟨rfl, hrest⟩ := append_inj_of_run hname.isWord hname'.isWord
    (head?_cons_eq_false (by decide) _) (isWord_head?_eq_false ha hc.1 u) h
  have hblank : ∀ c ∈ [' '], Text.isWhite c = true := by decide
  have hsign : ∀ c, (k.mark ++ (' ' :: t)).head? = some c → Text.isWhite c = false := by
    rw [hmark]
    exact head?_cons_eq_false hd _
  obtain ⟨-, htail⟩ := append_inj_of_run hblank ha hsign (head?_cons_eq_false hc.2 u) hrest
  exact ⟨rfl, htail⟩

/-- The form matches the line as a whole, and reads the name and the text of the value off it. -/
theorem matchIn_line (k : Setting) (hname : IsIdentifier name) (ht : ∀ c ∈ t, inLine c = true) :
    ∃ c, k.form.matchIn (.ofList (k.line name t)) = some c ∧ c.isWhole = true ∧
      k.form.readFields c = .ok (fields
        [("VAR", .string (.ofList name)), (k.slot, .string (.ofList (Text.trim t)))]) := by
  obtain ⟨piece, rest, groups, hs, hpiece, hmatch⟩ :=
    Form.exists_matchIn_of_spans (k.spans_line hname ht) (List.append_nil _).symm
  obtain ⟨-, rfl, name', a, b, v, rfl, rfl, hname', ha, hb⟩ := k.spans_pattern hpiece
  refine ⟨_, hmatch, Capture.isWhole_ofPieces.2 ⟨rfl, rfl⟩, ?_⟩
  rw [List.append_nil] at hs
  obtain ⟨d, ds, hmark, hd⟩ := k.mark_spec
  rw [hmark, List.cons_append] at hs
  obtain ⟨rfl, htail⟩ := line_inj hname hname' ha hd hs
  -- behind the signs there is one blank, but the match may have left it to the value
  rw [hmark, List.cons_append] at htail
  have hvalue : ' ' :: t = b ++ v := List.append_cancel_left (List.cons.inj htail).2
  have htrim : Text.trim v = Text.trim t := by
    rw [← Text.trim_append_of_isWhite hb, ← hvalue, ← List.singleton_append,
      Text.trim_append_of_isWhite (by decide)]
  have hread : k.form.readFields (.ofPieces [] (name ++ (a ++ (k.mark ++ (b ++ v)))) []
      [(1, name), (2, v)]) = .ok (fields [("VAR", .string (.ofList name)),
        (k.slot, .string (trimmed (.ofList v)))]) := by
    cases k <;> rfl
  rw [hread, trimmed, String.toList_ofList, htrim]

/-- Only the signs for a change are read as such. -/
theorem matchIn_mathChange_eq_none (hname : IsIdentifier name) :
    mathChange.matchIn (.ofList (assign.line name t)) = none := by
  refine Form.matchIn_eq_none fun before piece rest groups hs h => ?_
  obtain ⟨hbefore, rfl, name', a, b, v, rfl, -, hname', ha, -⟩ := spans_mathChange.1 h
  obtain rfl : before = [] := List.reverse_eq_nil_iff.1 hbefore
  rw [List.nil_append, List.append_nil] at hs
  obtain ⟨-, htail⟩ := line_inj hname hname' ha (by decide) hs
  exact absurd (List.cons.inj htail).1 (by decide)

/-- A line that sets a name is read as such, whatever the value is. -/
theorem firstMatch_line (k : Setting) (hname : IsIdentifier name) (ht : ∀ c ∈ t, inLine c = true) :
    ∃ c, vocabulary.firstMatch (.ofList (k.line name t)) = some (k.form, c) ∧ c.isWhole = true ∧
      k.form.readFields c = .ok (fields
        [("VAR", .string (.ofList name)), (k.slot, .string (.ofList (Text.trim t)))]) := by
  obtain ⟨c, hmatch, hread⟩ := k.matchIn_line hname ht
  refine ⟨c, ?_, hread⟩
  have hforms : vocabulary.forms = mathChange :: variablesSet :: forms.drop 2 := rfl
  rw [Vocabulary.firstMatch_eq, hforms, List.findSome?_cons]
  cases k with
  | assign =>
    rw [matchIn_mathChange_eq_none hname, Option.map_none, List.findSome?_cons]
    simp only [form] at hmatch ⊢
    rw [hmatch, Option.map_some]
  | change =>
    simp only [form] at hmatch ⊢
    rw [hmatch, Option.map_some]

end Setting

end ScriptBlocks.Dialect
