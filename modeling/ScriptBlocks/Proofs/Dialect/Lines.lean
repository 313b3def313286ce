import ScriptBlocks.Dialect

/-!
# Complete lines

Each built-in form gives a text whatever it is put together from: an expression if its template is
one, and lines otherwise, at least one and the last one ended.

## Main definitions

* `EndsLine` — a text whose last line is ended

## Main statements

* `Dialect.exists_write_of_statement`, `Dialect.exists_write_of_expression` — what a form gives
* `Dialect.isExpression_of_gated` — no expression is of a gated form
-/

namespace ScriptBlocks

/-- The text ends with the end of a line. -/
def EndsLine (s : String) : Prop := s.toList.getLast? = some '\n'

namespace EndsLine

variable {s t : String}

theorem append (s : String) (h : EndsLine t) : EndsLine (s ++ t) := by
  rw [EndsLine, String.toList_append, List.getLast?_append, h, Option.some_or]

theorem ne_empty (h : EndsLine s) : s ≠ "" := by
  rintro rfl
  exact nomatch h

/-- Nothing more, or further lines. -/
theorem append_ite {c : Prop} [Decidable c] (hs : EndsLine s) (ht : EndsLine t) :
    EndsLine (s ++ if c then t else "") := by
  split
  · exact ht.append s
  · rwa [String.append_empty]

/-- Texts of complete lines are put together to one. -/
theorem join {l : List String} (h : ∀ s ∈ l, s = "" ∨ EndsLine s) :
    String.join l = "" ∨ EndsLine (String.join l) := by
  induction l with
  | nil => exact .inl rfl
  | cons s l ih =>
    rw [List.forall_mem_cons] at h
    rw [String.join_cons]
    rcases ih h.2 with hrest | hrest
    · rw [hrest, String.append_empty]
      exact h.1
    · exact .inr (hrest.append s)

end EndsLine

namespace Layout

theorem getLast?_endLine (code : List Char) : (endLine code).getLast? = some '\n' := by
  rw [endLine]
  split
  · assumption
  · rw [List.getLast?_append, List.getLast?_singleton, Option.some_or]

theorem endsLine_block (code indent placeholder : String) :
    EndsLine (block code indent placeholder) := by
  rw [EndsLine, block, String.toList_ofList, blockChars]
  split
  · rw [List.getLast?_append, List.getLast?_singleton, Option.some_or]
  · exact getLast?_endLine _

end Layout

namespace Dialect

/-! ### Pieces of texts -/

theorem endsLine_body (p : Parts) (slot : String) : EndsLine (p.body slot) :=
  Layout.endsLine_block ..

theorem endsLine_arm (p : Parts) (word : String) (n : Nat) (default : String) :
    EndsLine (arm p word n default) :=
  (endsLine_body p _).append _

/-- The further arms of a conditional are lines behind lines. -/
theorem endsLine_append_furtherArms {s : String} (h : EndsLine s) (p : Parts) (fuel n : Nat) :
    EndsLine (s ++ furtherArms p fuel n) := by
  induction fuel generalizing s n with
  | zero => rwa [furtherArms, String.append_empty]
  | succ fuel ih =>
    rw [furtherArms]
    split
    · rw [← String.append_assoc]
      exact ih ((endsLine_arm p ..).append s) _
    · rwa [String.append_empty]

theorem endsLine_writeConditional (p : Parts) : EndsLine (writeConditional p) :=
  (endsLine_append_furtherArms (endsLine_arm p ..) p _ _).append_ite ((endsLine_body p _).append _)

theorem endsLine_atLight (function : String) (x y : Nat) : EndsLine (atLight function x y) :=
  .append _ (by rfl)

/-- A light is turned off first, whatever the icon. -/
theorem endsLine_drawIcon (name : String) : EndsLine (drawIcon name) := by
  refine (EndsLine.join fun s hs => .inr ?_).resolve_left fun h => ?_
  · rcases List.mem_append.1 hs with hs | hs
    · obtain ⟨y, -, hs⟩ := List.mem_flatMap.1 hs
      obtain ⟨x, -, rfl⟩ := List.mem_map.1 hs
      exact endsLine_atLight ..
    · obtain ⟨_, -, hs⟩ := List.mem_flatMap.1 hs
      obtain ⟨x, -, rfl⟩ := List.mem_map.1 hs
      exact endsLine_atLight ..
  · have hlist := congrArg String.toList h
    rw [show List.range 5 = 0 :: [1, 2, 3, 4] from rfl] at hlist
    simp [atLight, String.join_cons] at hlist

theorem exists_write_musicPlayTone (p : Parts) :
    ∃ code, musicPlayTone.write p = .ok (.statement code) ∧ EndsLine code := by
  by_cases hmode : p.fieldText "MODE" = "loop"
  · exact ⟨_, if_pos hmode, .append _ rfl⟩
  · exact ⟨_, if_neg hmode, .append _ rfl⟩

/-! ### The forms -/

theorem filter_statement_forms : (forms.filter fun f => !f.template.shape.isExpression) =
    [mathChange, variablesSet, showString, showNumber, basicShowLeds, pause, plotLed, unplotLed,
      showLeds, showIcon, plotLedBrightness, toggleLed, controlsIf, onButtonPressed, forever, onStart,
      pinWrite, musicPlayTone, musicRingTone, musicRest] := rfl

theorem filter_expression_forms : (forms.filter fun f => f.template.shape.isExpression) =
    [pointLed, buttonIsPressed, accelerometer, pinRead, text, logicCompare, mathArithmetic,
      logicBoolean, mathNumber, variablesGet] := rfl

/-- A statement draws an icon, is a conditional, plays a note, sets a variable, or is one of those
whose text is a call or the head of a body. -/
theorem statement_form_cases {form : Form} (hform : form ∈ forms)
    (hshape : form.template.shape.isExpression = false) :
    form = showIcon ∨ form = controlsIf ∨ form = musicPlayTone ∨ form = musicRingTone ∨
      form ∈ [mathChange, variablesSet] ∨
      form ∈ [showString, showNumber, basicShowLeds, pause, plotLed, unplotLed, showLeds,
        plotLedBrightness, toggleLed, onButtonPressed, forever, onStart, pinWrite, musicRest] := by
  have hmem : form ∈ forms.filter fun f => !f.template.shape.isExpression :=
    List.mem_filter.2 ⟨hform, by rw [hshape]; rfl⟩
  rw [filter_statement_forms] at hmem
  simp only [List.mem_cons, List.not_mem_nil, or_false] at hmem ⊢
  grind

/-- The form of a statement writes complete lines, and at least one. -/
theorem exists_write_of_statement {form : Form} (hform : form ∈ forms)
    (hshape : form.template.shape.isExpression = false) (p : Parts) :
    ∃ code, form.write p = .ok (.statement code) ∧ EndsLine code := by
  rcases statement_form_cases hform hshape with rfl | rfl | rfl | rfl | hmem | hmem
  · exact ⟨_, rfl, endsLine_drawIcon _⟩
  · exact ⟨_, rfl, endsLine_writeConditional p⟩
  · exact exists_write_musicPlayTone p
  · exact ⟨_, rfl, .append _ rfl⟩
  · simp only [List.mem_cons, List.not_mem_nil, or_false] at hmem
    rcases hmem with rfl | rfl
    all_goals exact ⟨_, rfl, .append _ rfl⟩
  · -- the text ends with a literal that ends a line
    simp only [List.mem_cons, List.not_mem_nil, or_false] at hmem
    rcases hmem with rfl | rfl | rfl | rfl | rfl | rfl | rfl | rfl | rfl | rfl | rfl | rfl | rfl | rfl
    all_goals exact ⟨_, rfl, .append _ rfl⟩

/-- The form of an expression writes an expression. -/
theorem exists_write_of_expression {form : Form} (hform : form ∈ forms)
    (hshape : form.template.shape.isExpression = true) (p : Parts) :
    ∃ code precedence, form.write p = .ok (.expression code precedence) := by
  have hmem : form ∈ forms.filter fun f => f.template.shape.isExpression :=
    List.mem_filter.2 ⟨hform, hshape⟩
  rw [filter_expression_forms] at hmem
  simp only [List.mem_cons, List.not_mem_nil, or_false] at hmem
  rcases hmem with rfl | rfl | rfl | rfl | rfl | rfl | rfl | rfl | rfl | rfl
  all_goals exact ⟨_, _, rfl⟩

theorem isExpression_of_gated {form : Form} (hform : form ∈ forms) (hgated : form.gated = true) :
    form.template.shape.isExpression = false := by
  revert form
  decide

end Dialect

end ScriptBlocks
