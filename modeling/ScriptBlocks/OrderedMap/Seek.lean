import ScriptBlocks.OrderedMap

/-!
# Looking up one key after another

A walk along links asks for many keys, and mostly each was written before the last. Looking from the
youngest entry back, and going on where the last look-up stopped, such a walk passes through the
entries once.

## Main definitions

* `OrderedMap.seek` — a look-up that goes on where another one stopped

## Main statements

* `OrderedMap.find?_eq_of_seek` — where it starts makes no difference to what is found
-/

namespace ScriptBlocks.OrderedMap

variable {κ α : Type} [DecidableEq κ]

/-- The part of `entries` that starts with the entry at `k`; empty if there is none. -/
def startingAt (k : κ) (entries : List (κ × α)) : List (κ × α) :=
  entries.dropWhile fun e => e.1 ≠ k

theorem not_mem_of_startingAt_eq_nil {k : κ} {entries : List (κ × α)}
    (h : startingAt k entries = []) (a : α) : (k, a) ∉ entries := by
  induction entries with
  | nil => simp
  | cons e rest ih =>
    rw [startingAt, List.dropWhile_cons] at h
    split at h
    · next he =>
      intro hmem
      rcases List.mem_cons.1 hmem with rfl | hmem
      · simp at he
      · exact ih h hmem
    · exact nomatch h

theorem startingAt_eq_cons {k : κ} {entries rest : List (κ × α)} {e : κ × α}
    (h : startingAt k entries = e :: rest) : e.1 = k ∧ ∀ x ∈ e :: rest, x ∈ entries := by
  constructor
  · have := List.head?_dropWhile_not (fun e : κ × α => decide (e.1 ≠ k)) entries
    rw [show entries.dropWhile (fun e => decide (e.1 ≠ k)) = e :: rest from h] at this
    simpa using this
  · intro x hx
    exact (List.dropWhile_suffix _).subset (h ▸ hx)

/-- The entry at `k` with what follows it: in the part `near` of the entries `all`, or else in
`all`. -/
def seek (all near : List (κ × α)) (k : κ) : List (κ × α) :=
  match startingAt k near with
  | [] => startingAt k all
  | found => found

theorem find?_eq_of_seek {m : OrderedMap κ α} {near : List (κ × α)} {k : κ}
    (hnear : ∀ e ∈ near, e ∈ m.entries) :
    m.find? k = (seek m.entries.reverse near k).head?.map Prod.snd ∧
      ∀ e ∈ seek m.entries.reverse near k, e ∈ m.entries := by
  have hall : ∀ e ∈ m.entries.reverse, e ∈ m.entries := fun e he => List.mem_reverse.1 he
  have hcons {entries rest : List (κ × α)} {e : κ × α} (hin : ∀ e ∈ entries, e ∈ m.entries)
      (h : startingAt k entries = e :: rest) : m.find? k = some e.2 := by
    obtain ⟨rfl, hsub⟩ := startingAt_eq_cons h
    exact find?_eq_some_iff.2 (hin _ (hsub _ List.mem_cons_self))
  unfold seek
  split
  · next hn =>
    cases h : startingAt k m.entries.reverse with
    | nil =>
      refine ⟨?_, by simp⟩
      cases hf : m.find? k with
      | none => rfl
      | some a =>
        exact absurd (List.mem_reverse.2 (find?_eq_some_iff.1 hf))
          (not_mem_of_startingAt_eq_nil h a)
    | cons e rest => exact ⟨hcons hall h, fun x hx => hall x ((startingAt_eq_cons h).2 x hx)⟩
  · next hn =>
    cases h : startingAt k near with
    | nil => exact absurd h hn
    | cons e rest => exact ⟨hcons hnear h, fun x hx => hnear x ((startingAt_eq_cons h).2 x hx)⟩

end ScriptBlocks.OrderedMap
