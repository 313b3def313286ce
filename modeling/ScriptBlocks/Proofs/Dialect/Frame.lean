import ScriptBlocks.Dialect

/-!
# What the forms look at

Most of the built-in forms look only at the fields and the values of a block. The name of a variable
is for the forms that have one, a body for entry points and conditionals, and names to declare are for
entry points, which are all written in the same frame.

## Main definitions

* `Dialect.Frames` — what is written around the declaration and the body of an entry point

## Main statements

* `Dialect.exists_frames` — an entry point is written as a function and its registration
* `Dialect.write_congr` — the parts at which a form does not look
-/

namespace ScriptBlocks.Dialect

/-- What is written around the declaration and the body of an entry point with these fields: the name
of the function, and its registration behind it. -/
inductive Frames (fields : Fields) : Form → String → String → Prop where
  | forever : Frames fields forever "on_forever" "basic.forever(on_forever)\n"
  | onStart : Frames fields onStart "on_start" "\non_start()\n"
  | onButtonPressed {button name : String} (hbutton : fields.textOr "BUTTON" "A" = button)
      (hname : "on_button_pressed_" ++ Text.lower button = name) :
      Frames fields onButtonPressed name
        ("\ninput.on_button_pressed(Button." ++ button ++ ", " ++ name ++ ")\n")

theorem filter_container_forms :
    (forms.filter Form.isContainer) = [onButtonPressed, forever, onStart] := rfl

/-- An entry point is written as a function and its registration. -/
theorem exists_frames {form : Form} (hform : form ∈ forms) (hcontainer : form.isContainer = true)
    (fields : Fields) : ∃ name closing, Frames fields form name closing ∧
      ∀ p : Parts, p.fields = fields → form.write p = .ok (.statement
        ("def " ++ name ++ "():\n" ++ p.globalsLine ++ p.body "DO" ++ closing)) := by
  have hmem : form ∈ forms.filter Form.isContainer := List.mem_filter.2 ⟨hform, hcontainer⟩
  rw [filter_container_forms] at hmem
  simp only [List.mem_cons, List.not_mem_nil, or_false] at hmem
  rcases hmem with rfl | rfl | rfl
  · refine ⟨_, _, .onButtonPressed rfl rfl, ?_⟩
    rintro p rfl
    simp only [onButtonPressed, lines, function, Parts.fieldOr, String.append_assoc]
  · exact ⟨_, _, .forever, fun p _ => rfl⟩
  · exact ⟨_, _, .onStart, fun p _ => rfl⟩

/-- The arms of a conditional are written from what its slots hold. -/
theorem furtherArms_congr (p : Parts) (globals : List String) (name? : Option String)
    (fuel n : Nat) : furtherArms { p with globals := globals, variableName? := name? } fuel n =
      furtherArms p fuel n := by
  induction fuel generalizing n with
  | zero => rfl
  | succ fuel ih =>
    rw [furtherArms, furtherArms, ih]
    rfl

theorem filter_variable_forms :
    (forms.filter fun f => f.variableField.isSome) = [mathChange, variablesSet, variablesGet] := rfl

theorem filter_plain_forms :
    (forms.filter fun f => !(f.isContainer || f.variableField.isSome)) =
      [showString, showNumber, basicShowLeds, pause, plotLed, unplotLed, showLeds, showIcon,
        plotLedBrightness, toggleLed, pointLed, controlsIf, buttonIsPressed, accelerometer, pinRead,
        pinWrite, musicPlayTone, musicRingTone, musicRest, text, logicCompare, mathArithmetic,
        logicBoolean, mathNumber] := rfl

/-- A form looks at the name of a variable only if it has one, at names to declare only if it is that
of an entry point, and at bodies only if it is that of an entry point or of a conditional. -/
theorem write_congr {form : Form} (hform : form ∈ forms) (p : Parts)
    {bodies : OrderedMap String String} {globals : List String} {name? : Option String}
    (hname : form.variableField = none ∨ name? = p.variableName?)
    (hglobals : form.isContainer = false ∨ globals = p.globals)
    (hbodies : form.isContainer = false ∧ form ≠ controlsIf ∨ bodies = p.bodies) :
    form.write { p with bodies := bodies, globals := globals, variableName? := name? } =
      form.write p := by
  by_cases hconditional : form = controlsIf
  · subst hconditional
    obtain rfl := hbodies.resolve_left fun h => h.2 rfl
    refine congrArg lines ?_
    rw [writeConditional, writeConditional, furtherArms_congr]
    rfl
  cases hcontainer : form.isContainer with
  | true =>
    obtain rfl := hglobals.resolve_left (by simp [hcontainer])
    obtain rfl := hbodies.resolve_left (by simp [hcontainer])
    obtain ⟨name, closing, -, hwrite⟩ := exists_frames hform hcontainer p.fields
    rw [hwrite p rfl]
    exact hwrite { p with variableName? := name? } rfl
  | false =>
    cases hvariable : form.variableField.isSome with
    | true =>
      have hmem : form ∈ forms.filter fun f => f.variableField.isSome :=
        List.mem_filter.2 ⟨hform, hvariable⟩
      obtain rfl := hname.resolve_left (Option.isSome_iff_ne_none.1 hvariable)
      rw [filter_variable_forms] at hmem
      simp only [List.mem_cons, List.not_mem_nil, or_false] at hmem
      rcases hmem with rfl | rfl | rfl
      all_goals rfl
    | false =>
      have hmem : form ∈ forms.filter fun f => !(f.isContainer || f.variableField.isSome) :=
        List.mem_filter.2 ⟨hform, by rw [hcontainer, hvariable]; rfl⟩
      rw [filter_plain_forms] at hmem
      simp only [List.mem_cons, List.not_mem_nil, or_false] at hmem
      rcases hmem with rfl | rfl | rfl | rfl | rfl | rfl | rfl | rfl | rfl | rfl | rfl | rfl |
        rfl | rfl | rfl | rfl | rfl | rfl | rfl | rfl | rfl | rfl | rfl | rfl
      all_goals first | exact absurd rfl hconditional | rfl

end ScriptBlocks.Dialect
