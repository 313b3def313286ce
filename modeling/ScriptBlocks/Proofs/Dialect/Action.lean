import ScriptBlocks.Proofs.Dialect.Picture

/-!
# Actions

The statements that do something at once and take no expression: those on single lights, a picture,
a pause, the output on a pin and the music. Each of them comes back from its text.

## Main definitions

* `Dialect.actions` — the forms

## Main statements

* `Dialect.isFaithful_of_mem_actions` — their blocks come back from their text
-/

namespace ScriptBlocks.Dialect

open Pattern

/-- The statements that take no expression. -/
def actions : List Form :=
  [plotLed, unplotLed, toggleLed, plotLedBrightness, pause, showLeds, pinWrite, musicPlayTone,
    musicRingTone, musicRest]

/-! ### Calls that are written and read by one description -/

theorem isClosed_singleton (name : String) (kind : ArgumentKind) (default : String) :
    IsClosed [⟨name, kind, default, .literal ")"⟩] :=
  show ")".toList = [')'] by decide

theorem isClosed_comma_cons (name : String) (kind : ArgumentKind) (default : String)
    {a : Argument} {args : List Argument} (h : IsClosed (a :: args)) :
    IsClosed (⟨name, kind, default, .comma⟩ :: a :: args) := by
  have hcomma : kind.includes ',' = false := by
    cases kind <;> decide
  exact ⟨⟨',', [' '], rfl, hcomma⟩, h⟩

theorem spans_lit_lit {s t : String} {ps : List Pattern} {before piece rest : List Char}
    {groups : List (Nat × List Char)} :
    (all (lit s :: lit t :: ps)).Spans before piece rest groups ↔
      (all (lit (s ++ t) :: ps)).Spans before piece rest groups := by
  simp only [spans_lit_cons, String.toList_append, List.reverse_append, List.append_assoc]
  constructor
  · rintro ⟨_, rfl, v, rfl, hv⟩
    exact ⟨v, rfl, hv⟩
  · rintro ⟨v, rfl, hv⟩
    exact ⟨_, rfl, v, rfl, hv⟩

/-! ### Single lights -/

/-- The arguments for a light. -/
def lightArguments : List Argument :=
  [⟨"X", .integer, "0", .comma⟩, ⟨"Y", .integer, "0", .literal ")"⟩]

theorem isCall_lightStatement {name function message tooltip : String}
    (hhead : ∃ c cs, (function ++ "(").toList = c :: cs ∧ c ≠ '#' ∧ Text.isWhite c = false)
    (hline : Text.IsLine (function ++ "(").toList) :
    IsCall (lightStatement name function message tooltip) (function ++ "(") lightArguments [] where
  spans_iff := spans_lit_lit
  read_eq c := by
    change readCoordinates c = _
    simp only [readCoordinates, lightArguments, readArguments, ArgumentKind.read]
    cases integer c 1 with
    | error fault => rfl
    | ok x =>
      cases integer c 2 with
      | error fault => rfl
      | ok y => rfl
  write_eq p _ := by
    refine congrArg lines (String.toList_inj.1 ?_)
    simp [coordinateCall, writeCall, lightArguments, writeArguments, Separator.text]
  closed := isClosed_comma_cons _ _ _ (isClosed_singleton ..)
  nodup := by decide
  head := hhead
  isLine := List.forall_mem_cons.2 ⟨hline, by decide⟩

theorem isFaithful_plotLed : IsFaithful plotLed := by
  have hcall : IsCall plotLed "led.plot(" lightArguments [] :=
    isCall_lightStatement ⟨'l', _, rfl, by decide, by decide⟩ (by decide)
  exact hcall.isFaithful (i := 6) rfl (by decide) (by decide) rfl rfl rfl rfl

theorem isFaithful_unplotLed : IsFaithful unplotLed := by
  have hcall : IsCall unplotLed "led.unplot(" lightArguments [] :=
    isCall_lightStatement ⟨'l', _, rfl, by decide, by decide⟩ (by decide)
  exact hcall.isFaithful (i := 7) rfl (by decide) (by decide) rfl rfl rfl rfl

theorem isFaithful_toggleLed : IsFaithful toggleLed := by
  have hcall : IsCall toggleLed "led.toggle(" lightArguments [] :=
    isCall_lightStatement ⟨'l', _, rfl, by decide, by decide⟩ (by decide)
  exact hcall.isFaithful (i := 11) rfl (by decide) (by decide) rfl rfl rfl rfl

theorem isCall_plotLedBrightness : IsCall plotLedBrightness "led.plot_brightness("
    [⟨"X", .integer, "0", .comma⟩, ⟨"Y", .integer, "0", .comma⟩,
      ⟨"BRIGHTNESS", .integer, "255", .literal ")"⟩] [] where
  spans_iff := Iff.rfl
  read_eq c := by
    simp only [plotLedBrightness, readArguments, ArgumentKind.read]
    cases integer c 1 with
    | error fault => rfl
    | ok x =>
      cases integer c 2 with
      | error fault => rfl
      | ok y =>
        cases integer c 3 with
        | error fault => rfl
        | ok brightness => rfl
  write_eq p _ := by
    refine congrArg lines (String.toList_inj.1 ?_)
    simp [writeCall, writeArguments, Separator.text]
  closed := isClosed_comma_cons _ _ _ (isClosed_comma_cons _ _ _ (isClosed_singleton ..))
  nodup := by decide
  head := ⟨'l', _, rfl, by decide, by decide⟩
  isLine := by decide

/-! ### Calls with one integer -/

theorem isCall_pause : IsCall pause "basic.pause(" [⟨"TIME", .integer, "1000", .literal ")"⟩] [] where
  spans_iff := Iff.rfl
  read_eq c := by
    simp only [pause, readArguments, ArgumentKind.read]
    cases integer c 1 with
    | error fault => rfl
    | ok time => rfl
  write_eq p _ := by
    refine congrArg lines (String.toList_inj.1 ?_)
    simp [writeCall, writeArguments, Separator.text]
  closed := isClosed_singleton ..
  nodup := by decide
  head := ⟨'b', _, rfl, by decide, by decide⟩
  isLine := by decide

theorem isCall_musicRingTone :
    IsCall musicRingTone "music.ring_tone(" [⟨"FREQ", .integer, "262", .literal ")"⟩] [] where
  spans_iff := Iff.rfl
  read_eq c := by
    simp only [musicRingTone, readArguments, ArgumentKind.read]
    cases integer c 1 with
    | error fault => rfl
    | ok frequency => rfl
  write_eq p _ := by
    refine congrArg lines (String.toList_inj.1 ?_)
    change ("music.ring_tone(" ++ p.fieldOr "FREQ" "262" ++ ")\n").toList = _
    simp [writeCall, writeArguments, Separator.text]
  closed := isClosed_singleton ..
  nodup := by decide
  head := ⟨'m', _, rfl, by decide, by decide⟩
  isLine := by decide

/-! ### Calls with arguments that are kept as they are -/

theorem isCall_pinWrite : IsCall pinWrite "pin" [⟨"PIN", .digits, "0", .literal ".write_analog("⟩,
    ⟨"VALUE", .integer, "512", .literal ")"⟩] [] where
  spans_iff := Iff.rfl
  read_eq c := by
    simp only [pinWrite, readArguments, ArgumentKind.read]
    cases integer c 2 with
    | error fault => rfl
    | ok value => rfl
  write_eq p _ := by
    refine congrArg lines (String.toList_inj.1 ?_)
    simp [writeCall, writeArguments, Separator.text]
  closed := ⟨⟨'.', "write_analog(".toList, by decide, by decide +kernel⟩, isClosed_singleton ..⟩
  nodup := by decide
  head := ⟨'p', _, rfl, by decide, by decide⟩
  isLine := by decide

/-- A tone that was read is played until it is done, so it is not written as one that goes on. -/
theorem isCall_musicPlayTone : IsCall musicPlayTone "music.play_tone("
    [⟨"NOTE", .digits, "262", .comma⟩, ⟨"DURATION", .decimal, "1", .literal ")"⟩]
    [("MODE", "until_done")] where
  spans_iff := Iff.rfl
  read_eq _ := rfl
  write_eq p hextra := by
    have hmode : p.fieldText "MODE" = "until_done" := by
      rw [Parts.fieldText, Fields.text, hextra _ List.mem_cons_self]
      rfl
    simp only [musicPlayTone, hmode]
    refine congrArg lines (String.toList_inj.1 ?_)
    simp [writeCall, writeArguments, Separator.text]
  closed := isClosed_comma_cons _ _ _ (isClosed_singleton ..)
  nodup := by decide
  head := ⟨'m', _, rfl, by decide, by decide⟩
  isLine := by decide

theorem isCall_musicRest :
    IsCall musicRest "music.rest(" [⟨"DURATION", .decimal, "1", .literal ")"⟩] [] where
  spans_iff := Iff.rfl
  read_eq _ := rfl
  write_eq p _ := by
    refine congrArg lines (String.toList_inj.1 ?_)
    simp [writeCall, writeArguments, Separator.text]
  closed := isClosed_singleton ..
  nodup := by decide
  head := ⟨'m', _, rfl, by decide, by decide⟩
  isLine := by decide

/-! ### All of them -/

/-- The blocks of an action come back from their text. -/
theorem isFaithful_of_mem_actions : ∀ form ∈ actions, IsFaithful form := by
  simp only [actions, List.forall_mem_cons]
  refine ⟨isFaithful_plotLed, isFaithful_unplotLed, isFaithful_toggleLed, ?_, ?_,
    isFaithful_showLeds, ?_, ?_, ?_, ?_, fun _ h => absurd h List.not_mem_nil⟩
  · exact isCall_plotLedBrightness.isFaithful (i := 10) rfl (by decide) (by decide) rfl rfl rfl
      rfl
  · exact isCall_pause.isFaithful (i := 5) rfl (by decide) (by decide) rfl rfl rfl rfl
  · exact isCall_pinWrite.isFaithful (i := 20) rfl (by decide) (by decide) rfl rfl rfl rfl
  · exact isCall_musicPlayTone.isFaithful (i := 21) rfl (by decide) (by decide) rfl rfl rfl rfl
  · exact isCall_musicRingTone.isFaithful (i := 22) rfl (by decide) (by decide) rfl rfl rfl rfl
  · exact isCall_musicRest.isFaithful (i := 23) rfl (by decide) (by decide) rfl rfl rfl rfl

end ScriptBlocks.Dialect
