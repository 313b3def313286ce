import ScriptBlocks.Proofs.Dialect.Recognition
import ScriptBlocks.Proofs.Json.Quoted

/-!
# String literals

Text is written as a JSON string, with escapes, and read as whatever stands between two quotes. So it
is read back where nothing has to be escaped; otherwise what is read is longer than what was written,
or it is not read as text at all.

## Main statements

* `Dialect.expressionFor_quoted` — a literal without a quote in it is read as its content
* `Dialect.form_ne_text_of_mem` — one with a quote in it is not read as text
-/

namespace ScriptBlocks

namespace Dialect

open Expression Pattern

variable {s before rest u : List Char} {groups : List (Nat × List Char)}

/-- A quote, anything but that quote as a group, and the quote again. -/
theorem spans_between {q : Char} {i : Nat} :
    (all [.lit (.ofList [q]), .group i (.many (· ≠ q)), .lit (.ofList [q])]).Spans before s rest
      groups ↔ ∃ v, s = q :: (v ++ [q]) ∧ groups = [(i, v)] ∧ ∀ c ∈ v, c ≠ q := by
  have hmany {b p r g} : (many (· ≠ q)).Spans b p r g ↔ (∀ c ∈ p, c ≠ q) ∧ g = [] := by
    simp only [spans_many, decide_eq_true_eq]
  simp only [spans_lit_cons, spans_group_cons, hmany, spans_all_nil, String.toList_ofList]
  constructor
  · rintro ⟨_, rfl, v, _, _, _, rfl, rfl, ⟨hv, rfl⟩, _, rfl, rfl, rfl⟩
    exact ⟨v, rfl, rfl, hv⟩
  · rintro ⟨v, rfl, rfl, hv⟩
    exact ⟨_, rfl, v, _, [], [], rfl, rfl, ⟨hv, rfl⟩, [], rfl, rfl, rfl⟩

theorem spans_text : text.pattern.Spans before s rest groups ↔
    (∃ v, s = '"' :: (v ++ ['"']) ∧ groups = [(1, v)] ∧ ∀ c ∈ v, c ≠ '"') ∨
      ∃ v, s = '\'' :: (v ++ ['\'']) ∧ groups = [(2, v)] ∧ ∀ c ∈ v, c ≠ '\'' :=
  or_congr spans_between spans_between

/-- A text between double quotes. -/
def quoted (u : List Char) : List Char := '"' :: (u ++ ['"'])

theorem toList_quote (s : String) : (Json.quote s).toList = quoted (Json.escape s.toList) :=
  String.toList_ofList

/-- Whatever the pattern of texts matches at the start of a quoted text, the content has no quote
in it. -/
theorem spans_text_quoted {piece : List Char} (hs : quoted u = piece ++ rest)
    (h : text.pattern.Spans before piece rest groups) :
    ∃ v, u ++ ['"'] = v ++ ['"'] ++ rest ∧ groups = [(1, v)] ∧ '"' ∉ v := by
  rcases spans_text.1 h with ⟨v, rfl, rfl, hv⟩ | ⟨v, rfl, -, -⟩
  · refine ⟨v, ?_, rfl, fun hmem => hv _ hmem rfl⟩
    exact (List.cons.inj hs).2
  · exact absurd (List.cons.inj hs).1 (by decide)

/-- All that stands between the quotes is the text, if no quote is among it. -/
theorem takes_text (hu : '"' ∉ u) :
    Takes text (.ofList (quoted u)) [("TEXT", .string (.ofList u))] := by
  have hne : ∀ c ∈ u, c ≠ '"' := fun c hc h => hu (h ▸ hc)
  obtain ⟨gs, hspans, hmatch⟩ := Form.matchWhole_of_spans (f := text)
    (spans_text.2 (.inl ⟨u, rfl, rfl, hne⟩)) fun piece rest gs hs h => by
      obtain ⟨v, htail, -, -⟩ := spans_text_quoted hs h
      exact eq_nil_of_concat_append hu htail
  obtain ⟨v, htail, rfl, -⟩ := spans_text_quoted (List.append_nil _).symm hspans
  rw [List.append_nil] at htail
  obtain rfl := List.append_cancel_right htail
  exact ⟨_, hmatch, rfl⟩

/-- A quote among it keeps it from being read as a text. -/
theorem matchWhole_text_of_mem (hu : '"' ∈ u) : text.matchWhole (.ofList (quoted u)) = none := by
  refine Form.matchWhole_eq_none fun groups h => ?_
  obtain ⟨v, htail, -, hv⟩ := spans_text_quoted (List.append_nil _).symm h
  rw [List.append_nil] at htail
  exact hv (List.append_cancel_right htail ▸ hu)

theorem matchWhole_call_quoted {form : Form} (hform : form ∈ calls) (u : List Char) :
    form.matchWhole (.ofList (quoted u)) = none := by
  have hhead {word : String} (hword : word.toList.head? ≠ some '"') :
      (quoted u).head? ≠ word.toList.head? := fun h => hword h.symm
  simp only [calls, List.mem_cons, List.not_mem_nil, or_false] at hform
  rcases hform with rfl | rfl | rfl | rfl
  · exact matchWhole_eq_none_of_head? rfl (by decide) (hhead (by decide))
  · exact matchWhole_eq_none_of_head? rfl (by decide) (hhead (by decide))
  · exact matchWhole_eq_none_of_head? rfl (by decide) (hhead (by decide))
  · exact matchWhole_eq_none_of_head? rfl (by decide) (hhead (by decide))

/-- A quoted text without a quote in it is read as its content. -/
theorem expressionFor_quoted (hu : '"' ∉ u) :
    ∃ c, vocabulary.expressionFor (.ofList (quoted u)) = some (text, c) ∧
      text.readFields c = .ok (fields [("TEXT", .string (.ofList u))]) :=
  expressionFor_eq_of_takes (takes_text hu) calls
    [logicCompare, mathArithmetic, logicBoolean, mathNumber, variablesGet] rfl
    fun _ hform => matchWhole_call_quoted hform u

/-- What takes a quoted text with a quote in it is not the form of texts. -/
theorem form_ne_text_of_mem {form : Form} {c : Capture} (hu : '"' ∈ u)
    (h : vocabulary.expressionFor (.ofList (quoted u)) = some (form, c)) :
    form.name ≠ text.name := by
  rw [Vocabulary.expressionFor_eq, expressionForms_eq] at h
  obtain ⟨f, hf, hmatch⟩ := List.exists_of_findSome?_eq_some h
  obtain ⟨c', hwhole, heq⟩ := Option.map_eq_some_iff.1 hmatch
  obtain ⟨rfl, rfl⟩ := Prod.mk.inj heq
  have hne : f ≠ text := by
    rintro rfl
    exact nomatch (matchWhole_text_of_mem hu).symm.trans hwhole
  have hnames : ∀ name ∈ (calls ++ [logicCompare, mathArithmetic, logicBoolean, mathNumber,
      variablesGet]).map Form.name, name ≠ text.name := by
    decide
  refine hnames f.name (List.mem_map_of_mem ?_)
  simp only [List.mem_append, List.mem_cons] at hf ⊢
  exact hf.imp_right fun h => h.resolve_left hne

theorem unwrap?_quoted (u : List Char) : unwrap? (quoted u) = none := by
  rw [quoted, unwrap?]
  intro rest h
  exact absurd (List.cons.inj h).1 (by decide)

theorem trimmed_quoted (u : List Char) : Text.Trimmed (quoted u) where
  head {c} h := by
    obtain rfl : '"' = c := Option.some.inj h
    decide
  last {c} h := by
    rw [quoted, ← List.cons_append, List.getLast?_concat] at h
    obtain rfl : '"' = c := Option.some.inj h
    decide

end Dialect

end ScriptBlocks
