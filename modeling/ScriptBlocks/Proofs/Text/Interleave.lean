import Mathlib.Data.List.Infix

/-!
# Words between other characters

A text in which literals alternate with runs of other characters: a word that has none of the
characters of the runs stands within one of the literals.

## Main definitions

* `Text.interleave` — literals with runs of other characters in between

## Main statements

* `Text.infix_of_infix_interleave` — a word is found in one of the literals
-/

namespace ScriptBlocks.Text

variable {word a b : List Char} {c : Char}

/-- A word without the character `c` does not reach beyond it. -/
theorem prefix_of_prefix_append_cons (hc : c ∉ word) (h : word <+: a ++ c :: b) : word <+: a := by
  rcases Nat.le_total word.length a.length with hle | hle
  · exact List.prefix_of_prefix_length_le h (List.prefix_append _ _) hle
  · have ha : a <+: word := List.prefix_of_prefix_length_le (List.prefix_append _ _) h hle
    obtain ⟨t, rfl⟩ := ha
    cases t with
    | nil => simp
    | cons d t =>
      obtain ⟨u, hu⟩ := h
      rw [List.append_assoc, List.append_cancel_left_eq, List.cons_append] at hu
      obtain rfl := (List.cons.inj hu).1
      exact absurd (List.mem_append_right _ List.mem_cons_self) hc

theorem infix_of_infix_append_cons (hc : c ∉ word) (h : word <:+: a ++ c :: b) :
    word <:+: a ∨ word <:+: b := by
  induction a with
  | nil =>
    rw [List.nil_append, List.infix_cons_iff] at h
    rcases h with h | h
    · exact .inl (prefix_of_prefix_append_cons hc (a := []) h).isInfix
    · exact .inr h
  | cons d a ih =>
    rw [List.cons_append, List.infix_cons_iff] at h
    rcases h with h | h
    · exact .inl (prefix_of_prefix_append_cons hc (a := d :: a) h).isInfix
    · exact (ih h).imp_left fun h => List.infix_cons h

/-- A literal, and further ones, each behind a run of other characters. -/
def interleave (first : List Char) (rest : List (List Char × List Char)) : List Char :=
  first ++ rest.flatMap fun e => e.1 ++ e.2

theorem interleave_cons (first run literal : List Char) (rest : List (List Char × List Char)) :
    interleave first ((run, literal) :: rest) = first ++ (run ++ interleave literal rest) := by
  simp [interleave]

/-- A word without the characters of a run does not reach into the run. -/
theorem infix_of_infix_append_run {run : List Char} (hne : run ≠ []) (hrun : ∀ c ∈ run, c ∉ word)
    (h : word <:+: a ++ (run ++ b)) : word <:+: a ∨ word <:+: b := by
  induction run generalizing a with
  | nil => exact absurd rfl hne
  | cons c run ih =>
    obtain ⟨hc, hrun⟩ := List.forall_mem_cons.1 hrun
    rcases infix_of_infix_append_cons hc h with h | h
    · exact .inl h
    · cases run with
      | nil => exact .inr h
      | cons d run =>
        rcases ih (List.cons_ne_nil _ _) hrun (a := []) h with h | h
        · exact .inl (List.infix_nil.1 h ▸ List.nil_infix)
        · exact .inr h

/-- A word without the characters of the runs stands within one of the literals. -/
theorem infix_of_infix_interleave {first : List Char} {rest : List (List Char × List Char)}
    (hruns : ∀ e ∈ rest, e.1 ≠ [] ∧ ∀ c ∈ e.1, c ∉ word) (h : word <:+: interleave first rest) :
    word <:+: first ∨ ∃ e ∈ rest, word <:+: e.2 := by
  induction rest generalizing first with
  | nil =>
    rw [interleave, List.flatMap_nil, List.append_nil] at h
    exact .inl h
  | cons e rest ih =>
    obtain ⟨run, literal⟩ := e
    obtain ⟨⟨hne, hrun⟩, hrest⟩ := List.forall_mem_cons.1 hruns
    rw [interleave_cons] at h
    rcases infix_of_infix_append_run hne hrun h with h | h
    · exact .inl h
    · rcases ih hrest h with h | ⟨e, he, h⟩
      · exact .inr ⟨_, List.mem_cons_self, h⟩
      · exact .inr ⟨e, List.mem_cons_of_mem _ he, h⟩

end ScriptBlocks.Text
