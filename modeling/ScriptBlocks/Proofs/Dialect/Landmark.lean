import Mathlib.Data.List.Nodup
import ScriptBlocks.Dialect
import ScriptBlocks.Proofs.Dialect.Shape
import ScriptBlocks.Proofs.Vocabulary

/-!
# Landmarks

Most forms match a line only where a certain word stands in it: the name of a function with its
parenthesis, or a sign. Where none of the words of a form is to be found, the form does not match,
and so a line goes to the form that it was written by.

## Main definitions

* `Pattern.Demands` — whatever a pattern matches has one of certain words in it
* `Dialect.landmarks` — such words for the forms

## Main statements

* `Dialect.demands_landmarks` — a form matches no line without its words
* `Dialect.firstMatch_of_landmarks` — the form that a line goes to
-/

namespace ScriptBlocks

/-! ### Words that a pattern demands -/

namespace Pattern

/-- Whatever the pattern matches has one of the words in it. -/
def Demands (p : Pattern) (words : List String) : Prop :=
  ∀ before piece rest groups, p.Spans before piece rest groups →
    ∃ word ∈ words, word.toList <:+: piece

variable {p q : Pattern} {ps : List Pattern} {words words' : List String}

theorem demands_lit (s : String) : (lit s).Demands [s] := by
  intro before piece rest groups h
  obtain ⟨rfl, -⟩ := spans_lit.1 h
  exact ⟨s, List.mem_cons_self, List.infix_rfl⟩

theorem Demands.group {i : Nat} (h : p.Demands words) : (Pattern.group i p).Demands words := by
  rintro before piece rest _ ⟨gs, -, hp⟩
  exact h before piece rest gs hp

theorem Demands.alt (hp : p.Demands words) (hq : q.Demands words) :
    (Pattern.alt p q).Demands words := by
  intro before piece rest groups h
  exact h.elim (hp before piece rest groups) (hq before piece rest groups)

theorem Demands.mono (h : p.Demands words) (hsub : words ⊆ words') : p.Demands words' := by
  intro before piece rest groups hp
  obtain ⟨word, hword, hin⟩ := h before piece rest groups hp
  exact ⟨word, hsub hword, hin⟩

theorem Demands.seq_right (h : q.Demands words) : (Pattern.seq p q).Demands words := by
  rintro before piece rest groups ⟨u, v, gs, hs, rfl, -, -, hv⟩
  obtain ⟨word, hword, hin⟩ := h _ _ _ _ hv
  exact ⟨word, hword, hin.trans (List.suffix_append u v).isInfix⟩

/-- A sequence demands what one of its parts demands. -/
theorem Demands.all (h : p.Demands words) (i : Nat) (hp : ps[i]? = some p) :
    (Pattern.all ps).Demands words := by
  induction ps generalizing i with
  | nil => exact nomatch hp
  | cons q ps ih =>
    intro before piece rest groups hspans
    obtain ⟨u, v, gs, hs, rfl, -, hu, hv⟩ := spans_all_cons.1 hspans
    cases i with
    | zero =>
      obtain rfl := Option.some.inj hp
      obtain ⟨word, hword, hin⟩ := h _ _ _ _ hu
      exact ⟨word, hword, hin.trans (List.prefix_append u v).isInfix⟩
    | succ i =>
      obtain ⟨word, hword, hin⟩ := ih i hp _ _ _ _ hv
      exact ⟨word, hword, hin.trans (List.suffix_append u v).isInfix⟩

theorem demands_lit_cons (s : String) (ps : List Pattern) :
    (Pattern.all (lit s :: ps)).Demands [s] :=
  (demands_lit s).all 0 rfl

/-- Two literals in a row are one word. -/
theorem demands_lit_lit (s t : String) (ps : List Pattern) :
    (Pattern.all (lit s :: lit t :: ps)).Demands [s ++ t] := by
  intro before piece rest groups h
  obtain ⟨v, rfl, hv⟩ := spans_lit_cons.1 h
  obtain ⟨u, rfl, -⟩ := spans_lit_cons.1 hv
  refine ⟨_, List.mem_cons_self, ?_⟩
  rw [String.toList_append, ← List.append_assoc]
  exact (List.prefix_append _ _).isInfix

/-- A form matches no text that has none of the words in it. -/
theorem Demands.matchIn_eq_none {f : Form} {s : List Char} (h : f.pattern.Demands words)
    (hs : ∀ word ∈ words, ¬ word.toList <:+: s) : f.matchIn (.ofList s) = none := by
  refine Form.matchIn_eq_none ?_
  rintro before piece rest groups rfl hspans
  obtain ⟨word, hword, hin⟩ := h _ _ _ _ hspans
  refine hs word hword (hin.trans ?_)
  exact List.infix_append' before piece rest

end Pattern

/-! ### The landmarks of the forms -/

namespace Dialect

open Pattern

/-- Words without which a form does not match, in the order of the forms: it demands one word of each
list. The last forms have none: they match numbers, names and constants. -/
def landmarks : List (Form × List (List String)) :=
  [(mathChange, [["+="]]), (variablesSet, [["="]]), (showString, [["basic.show_string("]]),
    (showNumber, [["basic.show_number("]]), (basicShowLeds, [["basic.show_leds("]]),
    (pause, [["basic.pause("]]), (plotLed, [["led.plot("]]), (unplotLed, [["led.unplot("]]),
    (showLeds, [["display.show(Image("]]), (showIcon, [["display.show(Image."]]),
    (plotLedBrightness, [["led.plot_brightness("]]), (toggleLed, [["led.toggle("]]),
    (pointLed, [["led.point("]]), (controlsIf, [[":"]]), (onButtonPressed, [["("], [":"]]),
    (buttonIsPressed, [["input.button_is_pressed("]]), (forever, [[":"]]),
    (onStart, [["on_start("]]), (accelerometer, [["()"]]), (pinRead, [[".read_analog()"]]),
    (pinWrite, [[".write_analog("]]), (musicPlayTone, [["music.play_tone("]]),
    (musicRingTone, [["music.ring_tone("]]), (musicRest, [["music.rest("]]), (text, [["\"", "'"]]),
    (logicCompare, [["==", "!=", "<=", ">=", "<", ">"]])]

theorem map_fst_landmarks : landmarks.map Prod.fst = forms.take 26 := rfl

theorem demands_literalPattern : literalPattern.Demands ["\"", "'"] := by
  refine .alt ?_ ?_
  · exact (demands_lit_cons "\"" _).mono (by decide)
  · exact (demands_lit_cons "'" _).mono (by decide)

theorem demands_comparisonSymbol : (anyOf ["==", "!=", "<=", ">=", "<", ">"]).Demands
    ["==", "!=", "<=", ">=", "<", ">"] := by
  intro before piece rest groups h
  obtain ⟨hsymbol, -⟩ := spans_comparisonSymbol.1 h
  rcases hsymbol with rfl | rfl | rfl | rfl | rfl | rfl <;> decide

theorem demands_landmarks : ∀ e ∈ landmarks, ∀ words ∈ e.2, e.1.pattern.Demands words := by
  simp only [landmarks, List.forall_mem_cons]
  have hnone {P : List String → Prop} : ∀ words ∈ [], P words := fun _ h =>
    absurd h List.not_mem_nil
  refine ⟨⟨?_, hnone⟩, ⟨?_, hnone⟩, ⟨demands_lit_cons _ _, hnone⟩, ⟨demands_lit_cons _ _, hnone⟩,
    ⟨demands_lit_cons _ _, hnone⟩, ⟨demands_lit_cons _ _, hnone⟩,
    ⟨demands_lit_lit "led.plot" "(" _, hnone⟩, ⟨demands_lit_lit "led.unplot" "(" _, hnone⟩,
    ⟨demands_lit_cons _ _, hnone⟩, ⟨demands_lit_cons _ _, hnone⟩, ⟨demands_lit_cons _ _, hnone⟩,
    ⟨demands_lit_lit "led.toggle" "(" _, hnone⟩, ⟨demands_lit_lit "led.point" "(" _, hnone⟩,
    ⟨?_, hnone⟩, ⟨?_, ?_, hnone⟩, ⟨demands_lit_cons _ _, hnone⟩, ⟨?_, hnone⟩, ⟨?_, hnone⟩,
    ⟨?_, hnone⟩, ⟨?_, hnone⟩, ⟨?_, hnone⟩, ⟨demands_lit_cons _ _, hnone⟩,
    ⟨demands_lit_cons _ _, hnone⟩, ⟨demands_lit_cons _ _, hnone⟩,
    ⟨demands_literalPattern, hnone⟩, ⟨?_, hnone⟩, fun _ h => absurd h List.not_mem_nil⟩
  · exact (demands_lit "+=").all 3 rfl
  · exact (demands_lit "=").all 3 rfl
  · exact (demands_lit ":").all 5 rfl
  · exact (demands_lit "(").all 6 rfl
  · exact (demands_lit ":").all 10 rfl
  · refine Demands.seq_right ?_
    exact .alt ((demands_lit ":").all 8 rfl) ((demands_lit ":").all 4 rfl)
  · exact (demands_lit "on_start(").all 2 rfl
  · exact (demands_lit "()").all 2 rfl
  · exact (demands_lit ".read_analog()").all 2 rfl
  · exact (demands_lit ".write_analog(").all 2 rfl
  · exact demands_comparisonSymbol.group.all 3 rfl

/-- A line goes to the first form that matches, and that is the form if none of those before it finds
all its words. -/
theorem firstMatch_of_landmarks {form : Form} {s : List Char} {c : Capture} (i : Nat)
    (hform : forms[i]? = some form) (hi : i ≤ 26)
    (hs : ∀ e ∈ landmarks.take i, ∃ words ∈ e.2, ∀ word ∈ words, ¬ word.toList <:+: s)
    (hmatch : form.matchIn (.ofList s) = some c) :
    vocabulary.firstMatch (.ofList s) = some (form, c) := by
  have hbefore : ∀ f ∈ forms.take i, f.matchIn (.ofList s) = none := by
    intro f hf
    have htake : forms.take i = (landmarks.take i).map Prod.fst := by
      rw [List.map_take, map_fst_landmarks, List.take_take, Nat.min_eq_left hi]
    rw [htake, List.mem_map] at hf
    obtain ⟨e, he, rfl⟩ := hf
    obtain ⟨words, hwords, hword⟩ := hs e he
    exact (demands_landmarks e (List.mem_of_mem_take he) words hwords).matchIn_eq_none hword
  obtain ⟨hlt, rfl⟩ := List.getElem?_eq_some_iff.1 hform
  have hnone : (forms.take i).findSome? (fun f => (f.matchIn (.ofList s)).map (f, ·)) = none := by
    rw [List.findSome?_eq_none_iff]
    intro f hf
    rw [hbefore f hf, Option.map_none]
  have hforms : vocabulary.forms = forms.take i ++ forms[i] :: forms.drop (i + 1) := by
    rw [← List.drop_eq_getElem_cons hlt, List.take_append_drop]
    rfl
  rw [Vocabulary.firstMatch_eq, hforms, List.findSome?_append, hnone, Option.none_or,
    List.findSome?_cons, hmatch]
  rfl

end Dialect

end ScriptBlocks
