import ScriptBlocks.Proofs.Dialect.Lines
import ScriptBlocks.Proofs.Text.Layout

/-!
# Lines in a text

Lines that start where a line of a text starts are indented with the text around them, and lines
within such lines start where a line of the text does too.

## Main definitions

* `StandsIn` — lines that start where a line of a text starts

## Main statements

* `Layout.indentLines_join` — texts of complete lines are indented one by one
* `Layout.indentLines_indentLines` — indents add up
* `StandsIn.indentLines` — lines are indented with the text around them
-/

namespace ScriptBlocks

open Layout

/-- The lines start where a line of the text starts. -/
def StandsIn (lines text : String) : Prop :=
  ∃ before after, (before = "" ∨ EndsLine before) ∧ text = before ++ lines ++ after

namespace Text

theorem isBlank_toList_append (s t : String) :
    isBlank (s ++ t).toList = (isBlank s.toList && isBlank t.toList) := by
  rw [String.toList_append, isBlank, List.all_append]
  rfl

theorem isBlank_join (l : List String) :
    isBlank (String.join l).toList = l.all fun s => isBlank s.toList := by
  induction l with
  | nil => rfl
  | cons s l ih => rw [String.join_cons, isBlank_toList_append, ih, List.all_cons]

end Text

theorem endsLines_toList_iff {s : String} : Text.EndsLines s.toList ↔ s = "" ∨ EndsLine s := by
  rw [Text.EndsLines, String.toList_eq_nil_iff]
  rfl

namespace Layout

variable {indent outer s t text : String}

theorem indentLines_append (hs : s = "" ∨ EndsLine s) (t indent : String) :
    indentLines (s ++ t) indent = indentLines s indent ++ indentLines t indent := by
  rw [indentLines, String.toList_append, indentChars_append (endsLines_toList_iff.2 hs),
    String.ofList_append]
  rfl

theorem indentLines_join {codes : List String} (h : ∀ s ∈ codes, s = "" ∨ EndsLine s)
    (indent : String) :
    indentLines (String.join codes) indent =
      String.join (codes.map fun s => indentLines s indent) := by
  induction codes with
  | nil => rfl
  | cons s codes ih =>
    rw [List.forall_mem_cons] at h
    rw [String.join_cons, indentLines_append h.1, ih h.2, List.map_cons, String.join_cons]

theorem indentLines_indentLines (hindent : Indent indent.toList) (s outer : String) :
    indentLines (indentLines s indent) outer = indentLines s (outer ++ indent) := by
  simp only [indentLines, String.toList_ofList, indentChars_indentChars hindent,
    String.toList_append]

theorem endsLine_indentLines (h : s = "" ∨ EndsLine s) (indent : String) :
    indentLines s indent = "" ∨ EndsLine (indentLines s indent) := by
  rw [← endsLines_toList_iff, indentLines, String.toList_ofList]
  exact endsLines_indentChars (endsLines_toList_iff.2 h) _

theorem Indent.join_replicate (hindent : Indent indent.toList) (d : Nat) :
    Indent (String.join (List.replicate d indent)).toList := by
  rw [String.toList_join, List.flatMap_replicate]
  exact hindent.replicate d

end Layout

namespace StandsIn

variable {lines inner text : String}

theorem empty (text : String) : StandsIn "" text :=
  ⟨"", text, .inl rfl, by rw [String.empty_append, String.empty_append]⟩

theorem trans (h : StandsIn inner lines) (h' : StandsIn lines text) : StandsIn inner text := by
  obtain ⟨b, a, hb, rfl⟩ := h
  obtain ⟨b', a', hb', rfl⟩ := h'
  refine ⟨b' ++ b, a ++ a', ?_, by simp only [String.append_assoc]⟩
  rcases hb with rfl | hb
  · rwa [String.append_empty]
  · exact .inr (hb.append b')

/-- What starts where a line does is indented with the text around it. -/
theorem indentLines (h : StandsIn lines text) (hlines : lines = "" ∨ EndsLine lines)
    (indent : String) :
    StandsIn (Layout.indentLines lines indent) (Layout.indentLines text indent) := by
  obtain ⟨b, a, hb, rfl⟩ := h
  refine ⟨Layout.indentLines b indent, Layout.indentLines a indent, endsLine_indentLines hb indent,
    ?_⟩
  rw [String.append_assoc, indentLines_append hb, indentLines_append hlines, String.append_assoc]

theorem of_mem_join {codes : List String} (h : ∀ s ∈ codes, s = "" ∨ EndsLine s)
    (hmem : lines ∈ codes) : StandsIn lines (String.join codes) := by
  obtain ⟨l, r, rfl⟩ := List.append_of_mem hmem
  refine ⟨String.join l, String.join r, EndsLine.join fun s hs => ?_, ?_⟩
  · exact h s (List.mem_append_left _ hs)
  · rw [String.join_append, String.join_cons, String.append_assoc]

end StandsIn

end ScriptBlocks
