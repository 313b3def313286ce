import ScriptBlocks.Proofs.Dialect.Shape

/-!
# Which form reads an expression

The expression forms are offered a text in the order of their registration. The text of a leaf is
taken by the form of the leaf and that of an operation by the form of its operator, since no form
that comes earlier can match it; and the fields that are read off are those of the block.

## Main definitions

* `Dialect.Takes` — a form matches a text as a whole and reads fields off it

## Main statements

* `Dialect.expressionFor_spelled` — a leaf is read as what it is
* `Dialect.expressionFor_binary` — an operation is read as its operator and operands
-/

namespace ScriptBlocks.Dialect

open Expression

variable {s t a b : List Char} {f g : Formula} {op : Operator}

/-- The form matches the text as a whole and reads these fields off it. -/
def Takes (form : Form) (text : String) (pairs : List (String × Value)) : Prop :=
  ∃ c, form.matchWhole text = some c ∧ form.readFields c = .ok (fields pairs)

theorem readFields_eq_ok {form : Form} {c : Capture} {pairs : List (String × Value)}
    (h : form.read c = .ok (fields pairs)) : form.readFields c = .ok (fields pairs) := by
  rw [Form.readFields, h]
  rfl

/-! ### The order of the forms -/

theorem expressionForms_eq : vocabulary.forms.filter (fun f => f.role = .expression) =
    calls ++ [text, logicCompare, mathArithmetic, logicBoolean, mathNumber, variablesGet] :=
  rfl

/-- An expression is an operation or has no arguments. -/
theorem operation_cases {form : Form}
    (hform : form ∈ vocabulary.forms.filter (fun f => f.role = .expression)) :
    (form = logicCompare ∨ form = mathArithmetic) ∨
      form ∈ calls ++ [text, logicBoolean, mathNumber, variablesGet] := by
  rw [expressionForms_eq] at hform
  simp only [List.mem_append, List.mem_cons, List.not_mem_nil, or_false] at hform ⊢
  tauto

/-- A form takes a text if none of those before it matches. -/
theorem expressionFor_eq_of_takes {form : Form} {text : String} {pairs : List (String × Value)}
    (h : Takes form text pairs) (before behind : List Form)
    (hforms : vocabulary.forms.filter (fun f => f.role = .expression) = before ++ form :: behind)
    (hbefore : ∀ f ∈ before, f.matchWhole text = none) :
    ∃ c, vocabulary.expressionFor text = some (form, c) ∧
      form.readFields c = .ok (fields pairs) := by
  obtain ⟨c, hmatch, hread⟩ := h
  refine ⟨c, ?_, hread⟩
  have hnone : before.findSome? (fun f => (f.matchWhole text).map (f, ·)) = none := by
    rw [List.findSome?_eq_none_iff]
    intro f hf
    rw [hbefore f hf, Option.map_none]
  rw [Vocabulary.expressionFor_eq, hforms, List.findSome?_append, hnone, Option.none_or,
    List.findSome?_cons, hmatch]
  rfl

/-! ### Forms that do not match -/

theorem matchWhole_call_eq_none {form : Form} (hform : form ∈ calls)
    (hs : ')' ∉ s ∨ ∃ c ∈ s, c ∈ operatorChars) : form.matchWhole (.ofList s) = none := by
  refine Form.matchWhole_eq_none fun groups h => ?_
  obtain ⟨u, rfl, hu⟩ := spans_call hform h
  rcases hs with hs | ⟨c, hc, hmem⟩
  · exact hs (List.mem_append_right _ List.mem_cons_self)
  · rcases List.mem_append.1 hc with hc | hc
    · exact hu c hc (List.mem_cons_of_mem _ hmem)
    · rw [List.mem_singleton.1 hc] at hmem
      exact absurd hmem (by decide)

/-- A form whose pattern starts with a word matches no text that starts otherwise. -/
theorem matchWhole_eq_none_of_head? {form : Form} {word : String} {ps : List Pattern}
    (hpattern : form.pattern = .all (.lit word :: ps)) (hword : word.toList ≠ [])
    (hs : s.head? ≠ word.toList.head?) : form.matchWhole (.ofList s) = none := by
  refine Form.matchWhole_eq_none fun groups h => ?_
  rw [hpattern, Pattern.spans_lit_cons] at h
  obtain ⟨v, rfl, -⟩ := h
  exact hs (List.head?_append_of_ne_nil _ hword)

theorem matchWhole_text_eq_none (hs : '"' ∉ s ∧ '\'' ∉ s) : text.matchWhole (.ofList s) = none := by
  refine Form.matchWhole_eq_none fun groups h => ?_
  rcases head?_of_spans_text h with hhead | hhead
  · exact hs.1 (List.mem_of_mem_head? hhead)
  · exact hs.2 (List.mem_of_mem_head? hhead)

theorem matchWhole_logicCompare_eq_none (hs : ∀ c ∈ s, c ∉ ['=', '!', '<', '>']) :
    logicCompare.matchWhole (.ofList s) = none := by
  refine Form.matchWhole_eq_none fun groups h => ?_
  obtain ⟨c, hc, hmem⟩ := spans_logicCompare_mem h
  exact hs c hc hmem

theorem matchWhole_mathArithmetic_eq_none (hs : ∀ c ∈ s.tail, c ∉ operatorChars) :
    mathArithmetic.matchWhole (.ofList s) = none := by
  refine Form.matchWhole_eq_none fun groups h => ?_
  obtain ⟨c, hc, hmem⟩ := spans_mathArithmetic_mem h
  exact hs c hc hmem

theorem matchWhole_logicBoolean_eq_none (hs : s ≠ "True".toList ∧ s ≠ "False".toList) :
    logicBoolean.matchWhole (.ofList s) = none := by
  refine Form.matchWhole_eq_none fun groups h => ?_
  obtain ⟨-, -, hword, -⟩ := spans_logicBoolean.1 h
  exact hword.elim hs.1 hs.2

theorem matchWhole_mathNumber_eq_none
    (hs : ∀ c, s.head? = some c → c ≠ '-' ∧ Text.isDigit c = false) :
    mathNumber.matchWhole (.ofList s) = none := by
  refine Form.matchWhole_eq_none fun groups h => ?_
  obtain ⟨-, -, -, sign, whole, places, rfl, hsign, ⟨hne, hwhole⟩, -⟩ := spans_mathNumber.1 h
  rcases hsign with rfl | rfl
  · exact (hs '-' rfl).1 rfl
  · cases whole with
    | nil => exact hne rfl
    | cons c whole => exact nomatch (hs c rfl).2.symm.trans (hwhole c List.mem_cons_self)

/-! ### Leaves -/

/-- A call is matched as a whole as soon as it can be: it ends where its parenthesis closes. -/
theorem matchWhole_call {form : Form} (hform : form ∈ calls) {groups : List (Nat × List Char)}
    (h : form.pattern.Spans [] s [] groups) : ∃ gs, form.pattern.Spans [] s [] gs ∧
      form.matchWhole (.ofList s) = some (.ofPieces [] s [] gs) := by
  obtain ⟨u, rfl, hu⟩ := spans_call hform h
  refine Form.matchWhole_of_spans h fun piece rest gs hs hpiece => ?_
  obtain ⟨p, rfl, -⟩ := spans_call hform hpiece
  exact eq_nil_of_concat_append (fun hmem => hu _ hmem List.mem_cons_self) hs

theorem takes_accelerometer {axis : Char} (h : (Leaf.acceleration axis).Valid) :
    Takes accelerometer (Leaf.acceleration axis).code (Leaf.acceleration axis).fields := by
  have hform : accelerometer ∈ calls := by simp [calls]
  have htext : (Leaf.acceleration axis).code.toList =
      "accelerometer.get_".toList ++ (axis :: ['(', ')']) := by
    rw [Leaf.toList_code_acceleration]
    simp
  obtain ⟨gs, hspans, hmatch⟩ := matchWhole_call hform
    (spans_accelerometer.2 ⟨axis, htext, rfl, h⟩)
  rw [String.ofList_toList] at hmatch
  obtain ⟨axis', htext', rfl, -⟩ := spans_accelerometer.1 hspans
  obtain rfl : axis = axis' :=
    (List.cons.inj (List.append_cancel_left (htext.symm.trans htext'))).1
  exact ⟨_, hmatch, rfl⟩

theorem takes_pinRead {digits : String} (h : (Leaf.pin digits).Valid) :
    Takes pinRead (Leaf.pin digits).code (Leaf.pin digits).fields := by
  have hform : pinRead ∈ calls := by simp [calls]
  have hrun : IsRun Text.isDigit digits.toList :=
    ⟨fun hnil => h.1 (String.toList_eq_nil_iff.1 hnil), h.2⟩
  have htext : (Leaf.pin digits).code.toList =
      "pin".toList ++ (digits.toList ++ ".read_analog()".toList) := by
    rw [Leaf.toList_code_pin]
    simp
  obtain ⟨gs, hspans, hmatch⟩ := matchWhole_call hform
    (spans_pinRead.2 ⟨_, htext, rfl, hrun⟩)
  rw [String.ofList_toList] at hmatch
  obtain ⟨digits', htext', rfl, -, hdigits'⟩ := spans_pinRead.1 hspans
  have hpoint : Text.isDigit '.' = false := by decide
  obtain ⟨rfl, -⟩ := append_inj_of_run h.2 hdigits' (head?_cons_eq_false hpoint _)
    (head?_cons_eq_false hpoint _)
    (List.append_cancel_left (htext.symm.trans htext'))
  refine ⟨_, hmatch, ?_⟩
  change Except.ok (fields [("PIN", .string (.ofList digits.toList))]) = _
  rw [String.ofList_toList]
  rfl

theorem isRun_toDigits (n : Nat) : IsRun Text.isDigit (Nat.toDigits 10 n) :=
  ⟨Nat.toDigits_ne_nil, fun _ hc => Text.isDigit_of_ascii (isDigit_of_mem_toDigits hc)⟩

theorem takes_pointLed {x y : Nat} (h : (Leaf.light x y).Valid) :
    Takes pointLed (Leaf.light x y).code (Leaf.light x y).fields := by
  have hform : pointLed ∈ calls := by simp [calls]
  have htext : (Leaf.light x y).code.toList = "led.point(".toList ++
      (Nat.toDigits 10 x ++ (',' :: ([' '] ++ (Nat.toDigits 10 y ++ [')'])))) := by
    rw [Leaf.toList_code_light]
    simp
  obtain ⟨gs, hspans, hmatch⟩ := matchWhole_call hform
    (spans_pointLed.2 ⟨_, _, _, htext, rfl, isRun_toDigits x, by decide, isRun_toDigits y⟩)
  rw [String.ofList_toList] at hmatch
  obtain ⟨x', bl, y', htext', rfl, hx', hbl, hy'⟩ := spans_pointLed.1 hspans
  have hwhite {u : List Char} (hu : IsRun Text.isDigit u) :
      ∀ c, (u ++ [')']).head? = some c → Text.isWhite c = false := by
    intro c hc
    rw [List.head?_append_of_ne_nil _ hu.1] at hc
    exact (Text.isPlain_iff.1 (Text.isPlain_of_isDigit (hu.2 c (List.mem_of_mem_head? hc)))).2
  obtain ⟨rfl, hcomma⟩ := append_inj_of_run (isRun_toDigits x).2 hx'.2
    (head?_cons_eq_false (by decide) _) (head?_cons_eq_false (by decide) _)
    (List.append_cancel_left (htext.symm.trans htext'))
  obtain ⟨rfl, hrest⟩ := append_inj_of_run (by decide) hbl (hwhite (isRun_toDigits y))
    (hwhite hy') (List.cons.inj hcomma).2
  obtain ⟨rfl, -⟩ := append_inj_of_run (isRun_toDigits y).2 hy'.2
    (head?_cons_eq_false (by decide) _) (head?_cons_eq_false (by decide) _) hrest
  refine ⟨_, hmatch, readFields_eq_ok ?_⟩
  have hinteger {c : Capture} {i n : Nat} (hn : n < integerLimit)
      (hgroup : c.group i = .ofList (Nat.toDigits 10 n)) :
      integer c i = .ok (.int (.ofNat n)) := by
    rw [integer, hgroup, String.toList_ofList, Text.readInteger_toDigits hn]
  change readCoordinates _ = _
  rw [readCoordinates, hinteger h.1 rfl, hinteger h.2 rfl]
  rfl

theorem takes_buttonIsPressed {which : String} (h : (Leaf.button which).Valid) :
    Takes buttonIsPressed (Leaf.button which).code (Leaf.button which).fields := by
  have hform : buttonIsPressed ∈ calls := by simp [calls]
  have hnone : ∀ c ∈ ([] : List Char), Text.isWhite c = true := fun _ h => absurd h List.not_mem_nil
  have hname : which.toList = ['A'] ∨ which.toList = ['B'] ∨ which.toList = ['A', 'B'] := by
    rcases h with rfl | rfl | rfl <;> decide
  have htext : (Leaf.button which).code.toList = "input.button_is_pressed(".toList ++
      ([] ++ ("Button.".toList ++ (which.toList ++ ([] ++ [')'])))) := by
    have hopen : "input.button_is_pressed(".toList =
        "input.button_is_pressed".toList ++ ['('] := by
      decide
    rw [Leaf.toList_code_button, hopen]
    simp
  obtain ⟨gs, hspans, hmatch⟩ := matchWhole_call hform
    (spans_buttonIsPressed.2 ⟨_, _, _, htext, rfl, hnone, hname, hnone⟩)
  rw [String.ofList_toList] at hmatch
  obtain ⟨a, which', b, htext', rfl, ha, hwhich', hb⟩ := spans_buttonIsPressed.1 hspans
  have hplain {u : List Char} (hu : u = ['A'] ∨ u = ['B'] ∨ u = ['A', 'B']) :
      ∀ c ∈ u, Text.isPlain c = true := by
    rcases hu with rfl | rfl | rfl <;> decide
  have hend {u : List Char} (hu : ∀ c ∈ u, Text.isWhite c = true) :
      ∀ c, (u ++ [')']).head? = some c → Text.isPlain c = false := by
    intro c hc
    rcases List.mem_append.1 (List.mem_of_mem_head? hc) with hc | hc
    · rw [Text.isPlain, hu c hc]
      exact Bool.and_false _
    · rw [List.mem_singleton.1 hc]
      decide
  have hbutton (t : List Char) :
      ∀ c, ("Button.".toList ++ t).head? = some c → Text.isWhite c = false :=
    head?_cons_eq_false (c := 'B') (by decide) _
  obtain ⟨-, hrest⟩ := append_inj_of_run hnone ha (hbutton _) (hbutton _)
    (List.append_cancel_left (htext.symm.trans htext'))
  obtain ⟨rfl, -⟩ := append_inj_of_run (hplain hname) (hplain hwhich') (hend hnone) (hend hb)
    (List.append_cancel_left hrest)
  refine ⟨_, hmatch, ?_⟩
  change Except.ok (fields [("BUTTON", .string (upper (.ofList which.toList)))]) = _
  rw [String.ofList_toList]
  rcases h with rfl | rfl | rfl <;> rfl

theorem takes_logicBoolean (b : Bool) :
    Takes logicBoolean (Leaf.truth b).code (Leaf.truth b).fields := by
  have hword : (Leaf.truth b).code.toList = "True".toList ∨
      (Leaf.truth b).code.toList = "False".toList := by
    cases b <;> decide
  obtain ⟨gs, hspans, hmatch⟩ := Form.matchWhole_of_spans (f := logicBoolean)
    (spans_logicBoolean.2 ⟨rfl, rfl, hword, rfl⟩) fun _ _ _ _ h => (spans_logicBoolean.1 h).2.1
  rw [String.ofList_toList] at hmatch
  obtain ⟨-, -, -, rfl⟩ := spans_logicBoolean.1 hspans
  refine ⟨_, hmatch, ?_⟩
  cases b <;> rfl

/-- A numeral is read as the number that it names. -/
theorem takes_mathNumber_of_isNumeral {negative : Bool} {whole places : List Char} {value : Value}
    (hnumeral : Text.IsNumeral s negative whole places) (hread : number (.ofList s) = .ok value) :
    Takes mathNumber (.ofList s) [("NUM", value)] := by
  have hdigit {c : Char} (hc : c ∈ whole ∨ c ∈ places) : Text.isDigit c = true :=
    Text.isDigit_of_ascii (hnumeral.isDigit hc)
  have hsign : (if negative then ['-'] else []) = ['-'] ∨
      (if negative then ['-'] else []) = ([] : List Char) := by
    cases negative
    · exact .inr rfl
    · exact .inl rfl
  have hplaces : (∃ ds, (if places = [] then [] else '.' :: places) = '.' :: ds ∧
      IsRun Text.isDigit ds) ∨ (if places = [] then [] else '.' :: places) = [] := by
    by_cases hnil : places = []
    · exact .inr (if_pos hnil)
    · exact .inl ⟨places, if_neg hnil, hnil, fun c hc => hdigit (.inr hc)⟩
  obtain ⟨gs, -, hmatch⟩ := Form.matchWhole_of_spans (f := mathNumber)
    (spans_mathNumber.2 ⟨rfl, rfl, rfl, _, whole, _, hnumeral.eq, hsign,
      ⟨hnumeral.whole_ne_nil, fun c hc => hdigit (.inl hc)⟩, hplaces⟩)
    fun _ _ _ _ h => (spans_mathNumber.1 h).2.1
  refine ⟨_, hmatch, readFields_eq_ok ?_⟩
  change (do return fields [("NUM", ← number (.ofList s))]) = _
  rw [hread]
  rfl

theorem takes_variablesGet {name : String} (h : (Leaf.name name).Valid) :
    Takes variablesGet (Leaf.name name).code (Leaf.name name).fields := by
  obtain ⟨gs, hspans, hmatch⟩ := Form.matchWhole_of_spans (f := variablesGet)
    (spans_variablesGet.2 ⟨rfl, rfl, h.identifier, rfl⟩) fun _ _ _ _ h => (spans_variablesGet.1 h).2.1
  rw [String.ofList_toList] at hmatch
  refine ⟨_, hmatch, readFields_eq_ok ?_⟩
  have hkeyword : keywords.contains name = false := by
    rw [Bool.eq_false_iff]
    exact fun hmem => h.not_keyword (List.contains_iff_mem.1 hmem)
  have hread : variablesGet.read (.ofPieces [] name.toList [] gs) =
      if keywords.contains (.ofList name.toList) then .error (.keyword (.ofList name.toList))
      else .ok (fields [("VAR", .string (.ofList name.toList))]) := rfl
  rw [hread, String.ofList_toList, hkeyword]
  rfl

/-- A character that starts a name starts no number. -/
theorem isDigit_eq_false_of_isAlpha {c : Char} (h : (c.isAlpha || c = '_') = true) :
    c ≠ '-' ∧ Text.isDigit c = false := by
  have hcodes : ∀ n < 128, ((Char.ofNat n).isAlpha || Char.ofNat n = '_') = true →
      Char.ofNat n ≠ '-' ∧ Text.isDigit (Char.ofNat n) = false := by
    decide +kernel
  have hcode : c.toNat < 128 := by
    rw [Bool.or_eq_true, decide_eq_true_iff] at h
    rcases h with h | rfl
    · change (decide (65 ≤ c.val ∧ c.val ≤ 90) || (decide (97 ≤ c.val) && decide (c.val ≤ 122))) = true
        at h
      simp only [Bool.or_eq_true, Bool.and_eq_true, decide_eq_true_eq, UInt32.le_iff_toNat_le] at h
      have hle : c.toNat ≤ 122 := by
        rcases h with ⟨-, h⟩ | ⟨-, h⟩
        · exact Nat.le_trans h (by decide)
        · exact h
      omega
    · decide
  have hall := hcodes c.toNat hcode
  rw [Char.ofNat_toNat] at hall
  exact hall h

/-- Behind the first character of a leaf there is no operator. -/
theorem not_mem_operatorChars_of_outline (h : Outline s) : ∀ c ∈ s.tail, c ∉ operatorChars := by
  intro c hc
  rcases h.mem_cases hc with hc | hc
  · exact fun hmem => not_mem_operatorChars_of_isPlain hc (List.mem_cons_of_mem _ hmem)
  · have hother : ∀ c ∈ ['(', ')', ' '], c ∉ operatorChars := by decide
    exact hother c hc

theorem not_mem_comparison_of_outline (h : Outline s) : ∀ c ∈ s, c ∉ ['=', '!', '<', '>'] := by
  have hsub : ∀ c ∈ ['=', '!', '<', '>'], c ∈ operatorChars := by decide
  intro c hc hmem
  cases s with
  | nil => exact absurd hc List.not_mem_nil
  | cons d s =>
    rcases List.mem_cons.1 hc with rfl | hc
    · rcases h.head_cases rfl with hc | rfl
      · exact not_mem_operatorChars_of_isPlain hc (List.mem_cons_of_mem _ (hsub _ hmem))
      · exact absurd hmem (by decide)
    · exact not_mem_operatorChars_of_outline h c hc (hsub c hmem)

/-- A leaf is neither a string literal nor an operation. -/
theorem matchWhole_outline_eq_none (h : Outline s) {form : Form}
    (hform : form ∈ [text, logicCompare, mathArithmetic]) : form.matchWhole (.ofList s) = none := by
  simp only [List.mem_cons, List.not_mem_nil, or_false] at hform
  rcases hform with rfl | rfl | rfl
  · exact matchWhole_text_eq_none h.chunk.not_mem.2.2
  · exact matchWhole_logicCompare_eq_none (not_mem_comparison_of_outline h)
  · exact matchWhole_mathArithmetic_eq_none (not_mem_operatorChars_of_outline h)

/-- Calls start with words of their own. -/
theorem expressionFor_call {l : Leaf} {form : Form} (h : Takes form l.code l.fields)
    (before behind : List Form)
    (hforms : vocabulary.forms.filter (fun f => f.role = .expression) = before ++ form :: behind)
    (hbefore : ∀ f ∈ before, ∃ (word : String) (ps : List Pattern),
      f.pattern = .all (.lit word :: ps) ∧ word.toList ≠ [] ∧
        l.code.toList.head? ≠ word.toList.head?) :
    ∃ c, vocabulary.expressionFor l.code = some (form, c) ∧
      form.readFields c = .ok (fields l.fields) := by
  refine expressionFor_eq_of_takes h before behind hforms fun f hf => ?_
  obtain ⟨word, ps, hpattern, hword, hhead⟩ := hbefore f hf
  rw [← String.ofList_toList (s := l.code)]
  exact matchWhole_eq_none_of_head? hpattern hword hhead

/-- A text that ends with no parenthesis is left to the forms behind the calls. -/
theorem expressionFor_plain (houtline : Outline s) {form : Form} {pairs : List (String × Value)}
    (h : Takes form (.ofList s) pairs) (hclose : ')' ∉ s) (between behind : List Form)
    (hforms : [logicBoolean, mathNumber, variablesGet] = between ++ form :: behind)
    (hbetween : ∀ f ∈ between, f.matchWhole (.ofList s) = none) :
    ∃ c, vocabulary.expressionFor (.ofList s) = some (form, c) ∧
      form.readFields c = .ok (fields pairs) := by
  refine expressionFor_eq_of_takes h (calls ++ ([text, logicCompare, mathArithmetic] ++ between))
    behind ?_ fun f hf => ?_
  · rw [expressionForms_eq, List.append_assoc, List.append_assoc, ← hforms]
    rfl
  · rcases List.mem_append.1 hf with hf | hf
    · exact matchWhole_call_eq_none hf (.inl hclose)
    · rcases List.mem_append.1 hf with hf | hf
      · exact matchWhole_outline_eq_none houtline hf
      · exact hbetween f hf

/-- A numeral is read as a number. -/
theorem expressionFor_numeral {negative : Bool} {whole places : List Char} {value : Value}
    (h : Text.IsNumeral s negative whole places) (hread : number (.ofList s) = .ok value) :
    ∃ c, vocabulary.expressionFor (.ofList s) = some (mathNumber, c) ∧
      mathNumber.readFields c = .ok (fields [("NUM", value)]) := by
  obtain ⟨u, htext, hne, hu⟩ := h.plain
  have hparen : ')' ∉ s := by
    have hclose : ')' ∉ u := fun hmem => absurd (hu _ hmem) (by decide)
    rw [htext]
    cases negative with
    | false => exact hclose
    | true => exact List.not_mem_cons_of_ne_of_not_mem (by decide) hclose
  have hhead : ∀ c, s.head? = some c → c = '-' ∨ c.isDigit = true := by
    intro c hc
    rw [h.eq] at hc
    cases negative with
    | true => exact .inl (Option.some.inj hc).symm
    | false =>
      rw [if_neg Bool.false_ne_true, List.nil_append,
        List.head?_append_of_ne_nil _ h.whole_ne_nil] at hc
      exact .inr (h.isDigit (.inl (List.mem_of_mem_head? hc)))
  have hboolean : logicBoolean.matchWhole (.ofList s) = none :=
    matchWhole_logicBoolean_eq_none
      ⟨fun h => absurd (hhead 'T' (by rw [h]; rfl)) (by decide),
        fun h => absurd (hhead 'F' (by rw [h]; rfl)) (by decide)⟩
  refine expressionFor_plain (outline_of_isNumeral h) (takes_mathNumber_of_isNumeral h hread) hparen
    [logicBoolean] [variablesGet] rfl fun f hf => ?_
  rw [List.mem_singleton.1 hf]
  exact hboolean

/-- A name is read as a variable. -/
theorem expressionFor_name {s : String} (hname : Leaf.IsName s) :
    ∃ c, vocabulary.expressionFor s = some (variablesGet, c) ∧
      variablesGet.readFields c = .ok (fields [("VAR", .string s)]) := by
  obtain ⟨c, cs, hs, hc, -⟩ := hname.identifier
  have hboolean : logicBoolean.matchWhole s = none := by
    have hnone := matchWhole_logicBoolean_eq_none (s := s.toList)
      ⟨fun h => hname.not_constant.1 (String.toList_injective h),
        fun h => hname.not_constant.2 (String.toList_injective h)⟩
    rwa [String.ofList_toList] at hnone
  have hnumber : mathNumber.matchWhole s = none := by
    have hnone := matchWhole_mathNumber_eq_none (s := s.toList) fun d hd => by
      rw [hs] at hd
      rw [← Option.some.inj hd]
      exact isDigit_eq_false_of_isAlpha hc
    rwa [String.ofList_toList] at hnone
  have htakes : Takes variablesGet s [("VAR", .string s)] := takes_variablesGet hname
  have hclose : ')' ∉ s.toList := fun hmem => absurd (hname.plain.1 _ hmem) (by decide)
  rw [← String.ofList_toList (s := s)] at hboolean hnumber htakes ⊢
  refine expressionFor_plain (Leaf.outline (l := .name s) hname) htakes hclose
    [logicBoolean, mathNumber] [] rfl fun f hf => ?_
  simp only [List.mem_cons, List.not_mem_nil, or_false] at hf
  rcases hf with rfl | rfl
  · exact hboolean
  · exact hnumber

/-- The text of a leaf is read as the leaf. -/
theorem expressionFor_leaf {l : Leaf} (hl : l.Valid) :
    ∃ c, vocabulary.expressionFor l.code = some (l.form, c) ∧
      l.form.readFields c = .ok (fields l.fields) := by
  cases l with
  | name s => exact expressionFor_name hl
  | number value =>
    obtain ⟨negative, whole, places, hnumeral⟩ := Leaf.IsNumber.numeral hl
    have hread : number (.ofList value.toText.toList) = .ok value := by
      rw [String.ofList_toList]
      exact hl.number_eq
    have hform := expressionFor_numeral hnumeral hread
    rwa [String.ofList_toList] at hform
  | truth b =>
    have hparen : ')' ∉ (Leaf.truth b).code.toList := by
      cases b <;> decide
    have htakes := takes_logicBoolean b
    rw [← String.ofList_toList (s := (Leaf.truth b).code)] at htakes ⊢
    exact expressionFor_plain (Leaf.outline (l := .truth b) hl) htakes hparen [] _ rfl
      fun f hf => absurd hf List.not_mem_nil
  | light x y =>
    exact expressionFor_call (takes_pointLed hl) [] _ rfl fun f hf => absurd hf List.not_mem_nil
  | button which =>
    have hhead : (Leaf.button which).code.toList.head? = some 'i' := by
      rw [Leaf.toList_code_button]
      rfl
    refine expressionFor_call (takes_buttonIsPressed hl) [pointLed] _ rfl fun f hf => ?_
    rw [List.mem_singleton.1 hf, hhead]
    exact ⟨_, _, rfl, by decide, by decide⟩
  | acceleration axis =>
    have hhead : (Leaf.acceleration axis).code.toList.head? = some 'a' := by
      rw [Leaf.toList_code_acceleration]
      rfl
    refine expressionFor_call (takes_accelerometer hl) [pointLed, buttonIsPressed] _ rfl
      fun f hf => ?_
    simp only [List.mem_cons, List.not_mem_nil, or_false] at hf
    rw [hhead]
    rcases hf with rfl | rfl
    · exact ⟨_, _, rfl, by decide, by decide⟩
    · exact ⟨_, _, rfl, by decide, by decide⟩
  | pin digits =>
    have hhead : (Leaf.pin digits).code.toList.head? = some 'p' := by
      rw [Leaf.toList_code_pin]
      rfl
    refine expressionFor_call (takes_pinRead hl) [pointLed, buttonIsPressed, accelerometer] _ rfl
      fun f hf => ?_
    simp only [List.mem_cons, List.not_mem_nil, or_false] at hf
    rw [hhead]
    rcases hf with rfl | rfl | rfl
    · exact ⟨_, _, rfl, by decide, by decide⟩
    · exact ⟨_, _, rfl, by decide, by decide⟩
    · exact ⟨_, _, rfl, by decide, by decide⟩

/-- A leaf is read off each of its spellings. -/
theorem expressionFor_spelled {l : Leaf} (h : l.Spelled s) :
    ∃ c, vocabulary.expressionFor (.ofList s) = some (l.form, c) ∧
      l.form.readFields c = .ok (fields l.fields) := by
  cases h with
  | code hl =>
    rw [String.ofList_toList]
    exact expressionFor_leaf hl
  | numeral h hread => exact expressionFor_numeral h hread

/-! ### Operations -/

theorem read_mathArithmetic : mathArithmetic.read = readArithmetic := by
  rw [mathArithmetic]

theorem read_logicCompare : logicCompare.read = readComparison := by
  rw [logicCompare]

theorem operatorChars_of_symbol (op : Operator) :
    ∃ c ∈ op.symbol.toList, c ∈ operatorChars := by
  cases op <;> decide

/-- No call and no string literal matches an operation. -/
theorem matchWhole_binary_eq_none (hs : Reads op.left s f) (ht : Reads op.right t g)
    (ha : Blanks a) (hb : Blanks b) {form : Form} (hform : form ∈ calls ++ [text]) :
    form.matchWhole (.ofList (s ++ (a ++ (op.symbol.toList ++ (b ++ t))))) = none := by
  rcases List.mem_append.1 hform with hform | hform
  · obtain ⟨c, hc, hmem⟩ := operatorChars_of_symbol op
    refine matchWhole_call_eq_none hform (.inr ⟨c, ?_, hmem⟩)
    exact List.mem_append_right _ (List.mem_append_right _ (List.mem_append_left _ hc))
  · obtain ⟨ops, hs, -⟩ := hs.chunk
    obtain ⟨ops', ht, -⟩ := ht.chunk
    rw [List.mem_singleton.1 hform]
    exact matchWhole_text_eq_none (hs.binary ht op ha hb).not_mem.2.2

theorem isRun_inLine_of_chunk {ops : List (Nat × String)} (h : Chunk s ops) : IsRun inLine s := by
  refine ⟨h.ne_nil, fun c hc => ?_⟩
  rw [inLine, decide_eq_true_iff]
  rintro rfl
  exact h.not_mem.1 hc

/-- The form of an arithmetic operator reads the operands off the text. -/
theorem takes_mathArithmetic (hop : op.isComparison = false) (hs : Reads op.left s f)
    (ht : Reads op.right t g) (ha : Blanks a) (hb : Blanks b) :
    Takes mathArithmetic (.ofList (s ++ (a ++ (op.symbol.toList ++ (b ++ t)))))
      [("A", .string (.ofList s)), ("OP", .string op.code), ("B", .string (.ofList t))] := by
  obtain ⟨ops, hchunk, -⟩ := hs.chunk
  obtain ⟨ops', hchunk', -⟩ := ht.chunk
  have hsymbol : op.symbol.toList = ['*', '*'] ∨ op.symbol.toList = ['-'] ∨
      op.symbol.toList = ['+'] ∨ op.symbol.toList = ['*'] ∨ op.symbol.toList = ['/'] := by
    cases op <;> first | decide | exact nomatch hop
  obtain ⟨gs, -, hmatch⟩ := Form.matchWhole_of_spans (f := mathArithmetic)
    (spans_mathArithmetic.2 ⟨rfl, rfl, rfl, s, a, op.symbol.toList, b, t, rfl,
      isRun_inLine_of_chunk hchunk, ha.isWhite, hsymbol, hb.isWhite,
      isRun_inLine_of_chunk hchunk'⟩)
    fun piece rest gs _ h => (spans_mathArithmetic.1 h).2.1
  have hcode : ((arithmeticOperators.find? fun op' => op'.symbol = op.symbol).getD addition).code =
      op.code := by
    cases op <;> first | decide | exact nomatch hop
  have hread : readArithmetic
      (.ofPieces [] (s ++ (a ++ (op.symbol.toList ++ (b ++ t)))) [] gs) =
      .ok (fields [("A", .string (.ofList s)), ("OP", .string op.code),
        ("B", .string (.ofList t))]) := by
    rw [readArithmetic, Capture.ofPieces, bare_binary hchunk hchunk' op ha hb,
      splitArithmetic_binary hop ha hb hs ht]
    simp only [hcode]
  exact ⟨_, hmatch, readFields_eq_ok (read_mathArithmetic ▸ hread)⟩

/-- The form of comparisons reads the operands off the text. -/
theorem takes_logicCompare (hop : op.isComparison = true) (hs : Reads op.left s f)
    (ht : Reads op.right t g) (ha : Blanks a) (hb : Blanks b) :
    Takes logicCompare (.ofList (s ++ (a ++ (op.symbol.toList ++ (b ++ t)))))
      [("A", .string (.ofList s)), ("OP", .string op.code), ("B", .string (.ofList t))] := by
  obtain ⟨ops, hchunk, -⟩ := hs.chunk
  obtain ⟨ops', hchunk', -⟩ := ht.chunk
  have hsymbol : op.symbol.toList = ['=', '='] ∨ op.symbol.toList = ['!', '='] ∨
      op.symbol.toList = ['<', '='] ∨ op.symbol.toList = ['>', '='] ∨ op.symbol.toList = ['<'] ∨
      op.symbol.toList = ['>'] := by
    cases op <;> first | decide | exact nomatch hop
  obtain ⟨gs, -, hmatch⟩ := Form.matchWhole_of_spans (f := logicCompare)
    (spans_logicCompare.2 ⟨rfl, rfl, s, a, op.symbol.toList, b, t, rfl, rfl,
      isRun_inLine_of_chunk hchunk, ha.isWhite, hsymbol, hb.isWhite,
      isRun_inLine_of_chunk hchunk'⟩)
    fun piece rest gs _ h => (spans_logicCompare.1 h).2.1
  have hcode : ((comparisons.find? fun e => e.2 = op.symbol).map Prod.fst).getD "EQ" =
      op.code := by
    cases op <;> first | decide | exact nomatch hop
  obtain ⟨hsplit, hone⟩ := splitComparison_binary hop ha hb hs ht
  have hread : readComparison
      (.ofPieces [] (s ++ (a ++ (op.symbol.toList ++ (b ++ t)))) [] gs) =
      .ok (fields [("A", .string (.ofList s)), ("OP", .string op.code),
        ("B", .string (.ofList t))]) := by
    rw [readComparison, Capture.ofPieces, bare_binary hchunk hchunk' op ha hb,
      String.toList_ofList]
    simp only [hone, hsplit, hcode, Nat.lt_irrefl, if_false]
  exact ⟨_, hmatch, readFields_eq_ok (read_logicCompare ▸ hread)⟩

/-- Operands of arithmetic have no comparison in them. -/
theorem not_mem_comparison_of_reads {n : Nat} (h : Reads n s f) (htyped : f.WellTyped)
    (hnumber : Capability.compatible (some .number) f.output = true) :
    ∀ c ∈ s, c ∉ ['=', '!', '<', '>'] := by
  have hblank {a : List Char} (ha : Blanks a) : ∀ c ∈ a, c ∉ ['=', '!', '<', '>'] := by
    intro c hc
    rcases ha c hc with rfl | rfl
    · decide
    · decide
  induction h with
  | leaf n hl => exact not_mem_comparison_of_outline hl.outline
  | paren n ha hb h ih =>
    simp only [List.forall_mem_append, List.forall_mem_cons]
    exact ⟨by decide, hblank ha, ih htyped hnumber, hblank hb, by decide, by simp⟩
  | binary op hn ha hb hf hg ihf ihg =>
    obtain ⟨hfoutput, hgoutput, hf, hg⟩ := htyped
    have hop : op.isComparison = false := by
      cases op <;> first | rfl | exact nomatch hnumber
    rw [Operator.check, hop] at hfoutput hgoutput
    have hsymbol : ∀ c ∈ op.symbol.toList, c ∉ ['=', '!', '<', '>'] := by
      cases op <;> first | decide | exact nomatch hop
    simp only [List.forall_mem_append]
    exact ⟨ihf hf hfoutput, hblank ha, hsymbol, hblank hb, ihg hg hgoutput⟩

/-- The text of an operation is read as its operator and operands. -/
theorem expressionFor_binary (hs : Reads op.left s f) (ht : Reads op.right t g) (ha : Blanks a)
    (hb : Blanks b) (htyped : (Formula.binary op f g).WellTyped) :
    ∃ c, vocabulary.expressionFor (.ofList (s ++ (a ++ (op.symbol.toList ++ (b ++ t))))) =
        some (op.form, c) ∧
      op.form.readFields c = .ok (fields
        [("A", .string (.ofList s)), ("OP", .string op.code), ("B", .string (.ofList t))]) := by
  have hearlier {form : Form} (hform : form ∈ calls ++ [text]) :=
    matchWhole_binary_eq_none hs ht ha hb hform
  cases hop : op.isComparison with
  | true =>
    rw [Operator.form, hop]
    exact expressionFor_eq_of_takes (takes_logicCompare hop hs ht ha hb) (calls ++ [text])
      [mathArithmetic, logicBoolean, mathNumber, variablesGet] rfl fun _ => hearlier
  | false =>
    have hall := not_mem_comparison_of_reads (Reads.binary op (Nat.le_refl _) ha hb hs ht) htyped (by
      rw [Formula.output, Operator.output, hop]
      rfl)
    rw [Operator.form, hop]
    refine expressionFor_eq_of_takes (takes_mathArithmetic hop hs ht ha hb)
      (calls ++ [text, logicCompare]) [logicBoolean, mathNumber, variablesGet] rfl fun form hform => ?_
    have hsplit : calls ++ [text, logicCompare] = calls ++ [text] ++ [logicCompare] := rfl
    rw [hsplit] at hform
    rcases List.mem_append.1 hform with hform | hform
    · exact hearlier hform
    · rw [List.mem_singleton.1 hform]
      exact matchWhole_logicCompare_eq_none hall

end ScriptBlocks.Dialect
