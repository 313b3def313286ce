import ScriptBlocks.Proofs.Dialect.Assignment
import ScriptBlocks.Proofs.Dialect.Conditional
import ScriptBlocks.Proofs.Pattern.Border

/-!
# Statements and the expressions in them

A line that sets a name goes to the form of its signs as a whole, whatever the value is, since these
forms are offered a line before all others. A conditional is offered a line only after the forms of
several calls, and those find their text anywhere in it. So its header goes to the conditional, as a
whole, unless one of these calls is found in the condition, or the condition starts with the signs
behind which `if` is the name that is set.

## Main definitions

* `Dialect.inner` — the forms in front of the conditional that match within a line
* `Dialect.Assigns` — a text that sets the name in front of it

## Main statements

* `Dialect.firstMatch_statement` — which statements go to their own form
* `Dialect.light_taken_from_condition` — a call in a condition that is taken instead
-/

namespace ScriptBlocks

/-- A line goes to a form just if that form matches and none of those before it does. -/
theorem Vocabulary.firstMatch_eq_some_iff {v : Vocabulary} {before behind : List Form} {f : Form}
    (hforms : v.forms = before ++ f :: behind) {text : String} {c : Capture} :
    v.firstMatch text = some (f, c) ↔
      f.matchIn text = some c ∧ ∀ g ∈ before, g.matchIn text = none := by
  have hfresh : ∀ g ∈ before, g ≠ f := by
    rintro g hg rfl
    have hnodup := v.nodup
    rw [hforms, List.map_append, List.nodup_append] at hnodup
    exact hnodup.2.2 _ (List.mem_map_of_mem hg) _ List.mem_cons_self rfl
  have hnone : before.findSome? (fun g => (g.matchIn text).map (g, ·)) = none ↔
      ∀ g ∈ before, g.matchIn text = none := by
    simp only [List.findSome?_eq_none_iff, Option.map_eq_none_iff]
  constructor
  · intro h
    obtain ⟨-, hmatch⟩ := Vocabulary.of_firstMatch h
    rw [firstMatch_eq, hforms, List.findSome?_append] at h
    refine ⟨hmatch, hnone.1 ?_⟩
    cases hfirst : before.findSome? fun g => (g.matchIn text).map (g, ·) with
    | none => rfl
    | some e =>
      obtain ⟨g, hg, hg'⟩ := List.exists_of_findSome?_eq_some hfirst
      obtain ⟨d, -, rfl⟩ := Option.map_eq_some_iff.1 hg'
      rw [hfirst] at h
      exact absurd (Prod.mk.inj (Option.some.inj h)).1 (hfresh g hg)
  · rintro ⟨hmatch, hbefore⟩
    rw [firstMatch_eq, hforms, List.findSome?_append, hnone.2 hbefore, Option.none_or,
      List.findSome?_cons, hmatch]
    rfl

namespace Dialect

open Pattern

variable {name e : List Char}

/-! ### Conditions -/

/-- The forms in front of the conditional that match within a line. -/
def inner : List Form :=
  [showString, showNumber, basicShowLeds, pause, plotLed, unplotLed, showLeds, showIcon,
    plotLedBrightness, toggleLed, pointLed]

theorem forms_eq_inner : vocabulary.forms =
    mathChange :: variablesSet :: inner ++ controlsIf :: forms.drop 14 := rfl

/-- Nothing of the header can be a part of what these forms match, but the condition. -/
theorem isSome_matchIn_header {f : Form} (hf : f ∈ inner) :
    (f.matchIn (.ofList (header "if" (.ofList e)))).isSome = (f.matchIn (.ofList e)).isSome := by
  have hborder : ∀ f ∈ inner, f.pattern.isFree = true ∧ f.pattern.canBeEmpty = false ∧
      (∀ c ∈ ['i', 'f', ' '], f.pattern.canStart c = false) ∧
      ∀ c ∈ [':'], f.pattern.canEnd c = false := by
    decide +kernel
  obtain ⟨hfree, hempty, hfront, hback⟩ := hborder f hf
  have hheader : header "if" (.ofList e) = ['i', 'f', ' '] ++ (e ++ [':']) := by simp [header]
  rw [hheader]
  exact Form.isSome_matchIn_between hfree hempty hfront hback

/-- A text that sets the name in front of it: it starts with the sign of an assignment, but not with
that of a comparison, or with the signs of a change. -/
def Assigns (t : List Char) : Prop :=
  ∃ u, t = '+' :: '=' :: u ∨ t = '=' :: u ∧ u.head? ≠ some '='

theorem header_if_eq : header "if" (.ofList e) = ['i', 'f'] ++ (' ' :: (e ++ [':'])) := by
  simp [header]

/-- Where a header is split behind a name, the name is `if`, and the rest starts where the condition
does. -/
theorem header_if_split {a u : List Char} {c : Char} (hname : IsIdentifier name)
    (ha : ∀ c ∈ a, Text.isWhite c = true) (hc : Text.isWord c = false ∧ Text.isWhite c = false)
    (h : header "if" (.ofList e) = name ++ (a ++ (c :: u))) :
    e.dropWhile Text.isWhite ++ [':'] = c :: u := by
  rw [header_if_eq] at h
  obtain ⟨-, hrest⟩ := append_inj_of_run (by decide) hname.isWord
    (head?_cons_eq_false (by decide) _) (isWord_head?_eq_false ha hc.1 u) h
  have hstop : ¬ Text.isWhite c = true := by rw [hc.2]; exact Bool.false_ne_true
  have hdrop := congrArg (List.dropWhile Text.isWhite) hrest
  rw [List.dropWhile_append_of_pos ha, List.dropWhile_cons_of_neg hstop,
    List.dropWhile_cons_of_pos (p := Text.isWhite) (by decide), List.dropWhile_append] at hdrop
  rw [← hdrop]
  split
  · next hnil => rw [List.isEmpty_iff.1 hnil]; rfl
  · rfl

/-- Where the condition starts with such signs, the form for them takes the header as a line that sets
the name `if`. -/
theorem exists_spans_of_assigns (he : ∀ c ∈ e, inLine c = true)
    (h : Assigns (e.dropWhile Text.isWhite)) : ∃ (k : Setting) (groups : List (Nat × List Char)),
      k.form.pattern.Spans [] (header "if" (.ofList e)) [] groups := by
  obtain ⟨u, hu⟩ := h
  have hsplit : e.takeWhile Text.isWhite ++ e.dropWhile Text.isWhite = e :=
    List.takeWhile_append_dropWhile
  have hrest : (' ' :: e.takeWhile Text.isWhite) ++ (e.dropWhile Text.isWhite ++ [':']) =
      ' ' :: (e ++ [':']) := by
    rw [List.cons_append, ← List.append_assoc, hsplit]
  have hblank : ∀ c ∈ ' ' :: e.takeWhile Text.isWhite, Text.isWhite c = true :=
    List.forall_mem_cons.2 ⟨by decide, fun _ => List.mem_takeWhile_imp⟩
  have hname : IsIdentifier ['i', 'f'] := ⟨'i', ['f'], rfl, by decide, by decide⟩
  have hvalue : ∀ c ∈ u ++ [':'], inLine c = true := by
    refine List.forall_mem_append.2 ⟨fun c hc => he c ?_, by decide⟩
    have hmem : c ∈ e.dropWhile Text.isWhite := by
      rcases hu with hu | ⟨hu, -⟩ <;> simp [hu, hc]
    exact (List.dropWhile_sublist _).subset hmem
  rcases hu with hu | ⟨hu, hhead⟩
  · refine ⟨.change, _, spans_mathChange.2 ⟨rfl, rfl, _, _, [], u ++ [':'], ?_, rfl, hname, hblank,
      nofun, by simp, hvalue⟩⟩
    rw [header_if_eq, ← hrest, hu]
    rfl
  · obtain ⟨c, cs, hcs⟩ := List.exists_cons_of_ne_nil (List.append_ne_nil_of_right_ne_nil u
      (List.cons_ne_nil ':' []))
    refine ⟨.assign, _, spans_variablesSet.2 ⟨rfl, rfl, _, _, [], u ++ [':'], ?_, rfl, hname, hblank,
      nofun, c, cs, hcs, ?_, ?_⟩⟩
    · rw [header_if_eq, ← hrest, hu]
      rfl
    · rintro rfl
      cases u with
      | nil => exact absurd (List.cons.inj hcs).1 (by decide)
      | cons d u => exact hhead (congrArg some (List.cons.inj hcs).1)
    · exact (List.forall_mem_cons.1 (hcs ▸ hvalue)).2

theorem assigns_of_spans_variablesSet {groups : List (Nat × List Char)}
    (h : variablesSet.pattern.Spans [] (header "if" (.ofList e)) [] groups) :
    Assigns (e.dropWhile Text.isWhite) := by
  obtain ⟨-, -, name, a, b, v, hs, -, hname, ha, hb, c, cs, rfl, hc, -⟩ := spans_variablesSet.1 h
  have hsplit := header_if_split hname ha (by decide) hs
  cases ht : e.dropWhile Text.isWhite with
  | nil => exact absurd (List.cons.inj (ht ▸ hsplit)).1 (by decide)
  | cons d u =>
    rw [ht, List.cons_append] at hsplit
    obtain ⟨rfl, htail⟩ := List.cons.inj hsplit
    refine ⟨u, .inr ⟨rfl, fun hu => ?_⟩⟩
    obtain ⟨w, rfl⟩ := List.head?_eq_some_iff.1 hu
    -- the second sign would be white space or the start of the value
    cases b with
    | nil => exact hc (List.cons.inj htail).1.symm
    | cons d b =>
      have hwhite := hb d List.mem_cons_self
      rw [← (List.cons.inj htail).1] at hwhite
      exact absurd hwhite (by decide)

theorem assigns_of_spans_mathChange {groups : List (Nat × List Char)}
    (h : mathChange.pattern.Spans [] (header "if" (.ofList e)) [] groups) :
    Assigns (e.dropWhile Text.isWhite) := by
  obtain ⟨-, -, name, a, b, v, hs, -, hname, ha, -⟩ := spans_mathChange.1 h
  have hsplit := header_if_split hname ha (by decide) hs
  match ht : e.dropWhile Text.isWhite with
  | [] => exact absurd (List.cons.inj (ht ▸ hsplit)).1 (by decide)
  | [d] => exact absurd (List.cons.inj (List.cons.inj (ht ▸ hsplit)).2).1 (by decide)
  | d :: d' :: u =>
    rw [ht, List.cons_append, List.cons_append] at hsplit
    obtain ⟨rfl, htail⟩ := List.cons.inj hsplit
    obtain ⟨rfl, -⟩ := List.cons.inj htail
    exact ⟨u, .inl rfl⟩

/-- A header sets the name `if` where its condition starts with such signs. -/
theorem assigns_iff (he : ∀ c ∈ e, inLine c = true) :
    Assigns (e.dropWhile Text.isWhite) ↔
      ∃ k : Setting, (k.form.matchIn (.ofList (header "if" (.ofList e)))).isSome = true := by
  constructor
  · intro h
    obtain ⟨k, groups, hspans⟩ := exists_spans_of_assigns he h
    obtain ⟨_, _, _, -, -, hmatch⟩ := Form.exists_matchIn_of_spans hspans (List.append_nil _).symm
    exact ⟨k, by rw [hmatch]; rfl⟩
  · rintro ⟨k, hk⟩
    obtain ⟨c, hc⟩ := Option.isSome_iff_exists.1 hk
    obtain ⟨before, piece, rest, groups, hs, hspans, -⟩ := Form.spans_of_matchIn hc
    obtain ⟨hbefore, rfl, -⟩ := k.spans_pattern hspans
    obtain rfl : before = [] := List.reverse_eq_nil_iff.1 hbefore
    rw [List.nil_append, List.append_nil] at hs
    subst hs
    cases k with
    | assign => exact assigns_of_spans_variablesSet hspans
    | change => exact assigns_of_spans_mathChange hspans

/-! ### Headers of conditionals -/

/-- The header of a conditional is split at the first colon. -/
theorem spans_controlsIf_iff {before piece rest : List Char} {groups : List (Nat × List Char)} :
    controlsIf.pattern.Spans before piece rest groups ↔
      Place.atWordBoundary ⟨before, piece ++ rest⟩ = true ∧ ∃ a u,
        piece = ['i', 'f'] ++ (a ++ (u ++ [':'])) ∧ groups = [(1, u)] ∧
        Place.atWordBoundary ⟨['f', 'i'] ++ before, a ++ (u ++ [':']) ++ rest⟩ = true ∧
        (∀ c ∈ a, Text.isWhite c = true) ∧ ∀ c ∈ u, c ≠ ':' := by
  have hcolon {b p r : List Char} {g : List (Nat × List Char)} :
      (all [":"]).Spans b p r g ↔ p = [':'] ∧ g = [] := spans_lit
  change (all [.wordBoundary, "if", .wordBoundary, .many Text.isWhite,
    .group 1 (.many (· ≠ ':')), ":"]).Spans before piece rest groups ↔ _
  simp only [spans_wordBoundary_cons, spans_lit_cons, spans_many_cons, spans_group_cons, spans_many,
    hcolon, decide_eq_true_eq]
  constructor
  · rintro ⟨hstart, _, rfl, hend, a, _, rfl, ha, u, _, _, _, rfl, rfl, ⟨hu, rfl⟩, rfl, rfl⟩
    exact ⟨hstart, a, u, rfl, rfl, hend, ha, hu⟩
  · rintro ⟨hstart, a, u, rfl, rfl, hend, ha, hu⟩
    exact ⟨hstart, _, rfl, hend, a, _, rfl, ha, u, _, [], [], rfl, rfl, ⟨hu, rfl⟩, rfl, rfl⟩

/-- A header is matched up to the first colon, and what stands in front of that is read as the
condition, whatever follows. -/
theorem matchIn_header (hcolon : ':' ∉ e) (z : List Char) :
    ∃ c, controlsIf.matchIn (.ofList (header "if" (.ofList e) ++ z)) = some c ∧
      (c.before = "" ∧ c.after = .ofList z) ∧ controlsIf.readFields c =
        .ok (if Text.trim e = [] then ∅ else fields [("IF0", .string (.ofList (Text.trim e)))]) := by
  have hfree : ∀ c ∈ ' ' :: e, c ≠ ':' :=
    List.forall_mem_cons.2 ⟨by decide, fun c hc heq => hcolon (heq ▸ hc)⟩
  have hstart (r : List Char) : Place.atWordBoundary ⟨[], 'i' :: r⟩ = true := by
    change (false != Text.isWord 'i') = true
    decide
  have hend (r : List Char) : Place.atWordBoundary ⟨['f', 'i'], ' ' :: r⟩ = true := by
    change (Text.isWord 'f' != Text.isWord ' ') = true
    decide
  have hspans : controlsIf.pattern.Spans [] (header "if" (.ofList e)) z [(1, ' ' :: e)] := by
    rw [header_if_eq]
    exact spans_controlsIf_iff.2 ⟨hstart _, [], ' ' :: e, rfl, rfl, hend _, nofun, hfree⟩
  obtain ⟨piece, rest, groups, hs, hpiece, hmatch⟩ := Form.exists_matchIn_of_spans hspans rfl
  obtain ⟨-, a, u, rfl, rfl, -, ha, hu⟩ := spans_controlsIf_iff.1 hpiece
  have hline : (' ' :: e) ++ (':' :: z) = (a ++ u) ++ (':' :: rest) := by
    rw [header_if_eq] at hs
    simpa using hs
  have hfree' : ∀ c ∈ a ++ u, c ≠ ':' := by
    refine List.forall_mem_append.2 ⟨fun c hc => ?_, hu⟩
    rintro rfl
    exact absurd (ha _ hc) (by decide)
  have hstop (r : List Char) : ∀ c, (':' :: r).head? = some c → decide (c ≠ ':') = false :=
    head?_cons_eq_false (by decide) r
  obtain ⟨hcondition, htail⟩ := append_inj_of_run (fun c hc => decide_eq_true (hfree c hc))
    (fun c hc => decide_eq_true (hfree' c hc)) (hstop z) (hstop rest) hline
  obtain rfl : z = rest := (List.cons.inj htail).2
  have htrim : Text.trim u = Text.trim e := by
    rw [← Text.trim_append_of_isWhite ha, ← hcondition, ← List.singleton_append,
      Text.trim_append_of_isWhite (by decide)]
  have hempty : String.ofList (Text.trim e) = "" ↔ Text.trim e = [] := by
    rw [← String.toList_eq_nil_iff, String.toList_ofList]
  have hread : controlsIf.readFields (.ofPieces [] (['i', 'f'] ++ (a ++ (u ++ [':']))) z [(1, u)]) =
      .ok (if trimmed (.ofList u) = "" then ∅
        else fields [("IF0", .string (trimmed (.ofList u)))]) := rfl
  refine ⟨_, hmatch, ⟨rfl, rfl⟩, ?_⟩
  rw [hread, trimmed, String.toList_ofList, htrim]
  simp only [hempty]

/-- Statements that set a name go to their own form, and conditionals do unless there is a call in
the condition that is found first. -/
theorem firstMatch_statement (hname : IsIdentifier name) (he : ∀ c ∈ e, inLine c = true) (hcolon : ':' ∉ e) :
    (∀ k : Setting, ∃ c, vocabulary.firstMatch (.ofList (k.line name e)) = some (k.form, c) ∧
      c.isWhole = true) ∧
    ((∃ c, vocabulary.firstMatch (.ofList (header "if" (.ofList e))) = some (controlsIf, c) ∧
        c.isWhole = true) ↔
      ¬ Assigns (e.dropWhile Text.isWhite) ∧ ∀ f ∈ inner, f.matchIn (.ofList e) = none) := by
  have hline (k : Setting) : ∃ c, vocabulary.firstMatch (.ofList (k.line name e)) =
      some (k.form, c) ∧ c.isWhole = true := by
    obtain ⟨c, hmatch, hwhole, -⟩ := k.firstMatch_line hname he
    exact ⟨c, hmatch, hwhole⟩
  refine ⟨hline, ?_⟩
  have hsetting : ¬ Assigns (e.dropWhile Text.isWhite) ↔
      ∀ f ∈ [mathChange, variablesSet], f.matchIn (.ofList (header "if" (.ofList e))) = none := by
    rw [assigns_iff he, not_exists]
    simp only [Bool.not_eq_true, Option.isSome_eq_false_iff, Option.isNone_iff_eq_none,
      List.forall_mem_cons]
    refine ⟨fun h => ⟨h .change, h .assign, List.forall_mem_nil _⟩, fun h k => ?_⟩
    cases k with
    | assign => exact h.2.1
    | change => exact h.1
  have hinner : (∀ f ∈ inner, f.matchIn (.ofList e) = none) ↔
      ∀ f ∈ inner, f.matchIn (.ofList (header "if" (.ofList e))) = none := by
    refine forall₂_congr fun f hf => ?_
    rw [← Option.not_isSome_iff_eq_none, ← Option.not_isSome_iff_eq_none, isSome_matchIn_header hf]
  obtain ⟨c, hmatch, ⟨hbefore, hafter⟩, -⟩ := matchIn_header hcolon []
  have hwhole : c.isWhole = true := by rw [Capture.isWhole, hbefore, hafter]; rfl
  rw [List.append_nil] at hmatch
  rw [hsetting, hinner, ← List.forall_mem_append]
  constructor
  · rintro ⟨d, hfirst, -⟩
    exact ((Vocabulary.firstMatch_eq_some_iff forms_eq_inner).1 hfirst).2
  · intro h
    exact ⟨c, (Vocabulary.firstMatch_eq_some_iff forms_eq_inner).2 ⟨hmatch, h⟩, hwhole⟩

/-- A comparison is assigned and asked for. -/
theorem firstMatch_statement_of_comparison :
    IsIdentifier ['x'] ∧ (∀ c ∈ "y == 1".toList, inLine c = true) ∧ ':' ∉ "y == 1".toList ∧
      (∀ k : Setting, ∃ c, vocabulary.firstMatch (.ofList (k.line ['x'] "y == 1".toList)) =
        some (k.form, c) ∧ c.isWhole = true) ∧
      ∃ c, vocabulary.firstMatch (.ofList (header "if" (.ofList "y == 1".toList))) =
        some (controlsIf, c) ∧ c.isWhole = true := by
  have hname : IsIdentifier ['x'] := ⟨'x', [], rfl, by decide, nofun⟩
  have hline : ∀ c ∈ "y == 1".toList, inLine c = true := by decide
  have hcolon : ':' ∉ "y == 1".toList := by decide
  have hassigns : ¬ Assigns ("y == 1".toList.dropWhile Text.isWhite) := by
    rintro ⟨u, h | ⟨h, -⟩⟩
    · exact absurd (List.cons.inj h).1 (by decide)
    · exact absurd (List.cons.inj h).1 (by decide)
  obtain ⟨hsettings, hheader⟩ := firstMatch_statement hname hline hcolon
  exact ⟨hname, hline, hcolon, hsettings, hheader.2 ⟨hassigns, by decide +kernel⟩⟩

/-- The condition is a call that is read as such by itself, but its header goes to the call. -/
theorem light_taken_from_condition :
    let e := "led.point(2, 2)"
    ((vocabulary.expressionFor e).map fun m =>
        (m.1.name, m.2.isWhole, (m.1.readFields m.2).toOption)) =
      some ("point_led", true, some (fields [("X", .int 2), ("Y", .int 2)])) ∧
    ((vocabulary.firstMatch (.ofList (header "if" e))).map fun m => (m.1.name, m.2.isWhole)) =
      some ("point_led", false) := by
  decide +kernel

end Dialect

end ScriptBlocks
