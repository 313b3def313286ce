import ScriptBlocks.Proofs.Json.Record

/-!
# Records that were edited

A host may leave members of a record out, and add members that the record does not know. What it
leaves in is read as before; a member that is left out is read as its default, and what is added
makes no difference, whatever it is and wherever it stands.

## Main definitions

* `Json.Edits` — an object with members left out and others added
* `Json.Record.without` — a record with fields left out

## Main statements

* `Json.record?_of_edits` — an edited object is read as the record without the fields
* `Json.Record.defaulted_without` — a field is read as before, or as its default
-/

namespace ScriptBlocks.Json

/-- The members that are left of a record with fields of the given names: those with a dropped name
are left out, and members with other names than the record's may stand anywhere between the rest. It
is the names that keys stand for that count, not how they are written. -/
inductive EditsMembers (names dropped : List String) :
    List (List Char × Json) → List (List Char × Json) → Prop where
  | nil : EditsMembers names dropped [] []
  | keep {key : List Char} {name : String} {j : Json} {raws edited : List (List Char × Json)} :
    rawText? key = some name → name ∉ dropped → EditsMembers names dropped raws edited →
      EditsMembers names dropped ((key, j) :: raws) ((key, j) :: edited)
  | drop {key : List Char} {name : String} {j : Json} {raws edited : List (List Char × Json)} :
    rawText? key = some name → name ∈ dropped → EditsMembers names dropped raws edited →
      EditsMembers names dropped ((key, j) :: raws) edited
  | add {key : List Char} {name : String} {j : Json} {raws edited : List (List Char × Json)} :
    rawText? key = some name → name ∉ names → EditsMembers names dropped raws edited →
      EditsMembers names dropped raws ((key, j) :: edited)

/-- The second object is the first one, a record, with members left out and others added. -/
inductive Edits (names dropped : List String) : Json → Json → Prop where
  | object {raws edited : List (List Char × Json)} : EditsMembers names dropped raws edited →
    Edits names dropped (object raws) (object edited)

/-- The record without the fields of the given names. -/
def Record.without (r : Record) (dropped : List String) : Record :=
  { r with members := r.members.filter fun m => m.1 ∉ dropped }

variable {names dropped : List String} {raws edited : List (List Char × Json)} {j j' : Json}
  {name : String} {r : Record}

/-! ### Objects -/

/-- Every object of members with texts as keys can be left as it is. -/
theorem edits_ofMembers (names : List String) (members : List (String × Json)) :
    Edits names [] (ofMembers members) (ofMembers members) := by
  refine .object ?_
  induction members with
  | nil => exact .nil
  | cons m members ih => exact .keep (rawText?_escape m.1) List.not_mem_nil ih

theorem members?_cons {key : List Char} (hkey : rawText? key = some name) :
    (object ((key, j) :: raws)).members? = ((object raws).members?).map ((name, j) :: ·) := by
  simp only [members?, List.mapM_cons, hkey, Option.bind_eq_bind, Option.bind_some,
    Option.map_eq_bind]
  rfl

/-- Among the members with names of the record, just the dropped ones are missing. -/
theorem EditsMembers.exists_members? (h : EditsMembers names dropped raws edited) :
    ∀ {members}, (object raws).members? = some members →
      ∃ left, (object edited).members? = some left ∧
        (left.filter fun m => names.contains m.1) =
          (members.filter fun m => names.contains m.1).filter fun m => m.1 ∉ dropped := by
  induction h with
  | nil =>
    rintro members ⟨⟩
    exact ⟨[], rfl, rfl⟩
  | @keep key name j raws edited hkey hname _ ih =>
    intro members hmembers
    rw [members?_cons hkey, Option.map_eq_some_iff] at hmembers
    obtain ⟨members, hmembers, rfl⟩ := hmembers
    obtain ⟨left, hleft, heq⟩ := ih hmembers
    refine ⟨(name, j) :: left, by rw [members?_cons hkey, hleft, Option.map_some], ?_⟩
    by_cases hnames : names.contains name = true
    · simp only [List.filter_cons, hnames, if_true, heq, hname, not_false_eq_true, decide_true]
    · simp only [List.filter_cons, hnames, Bool.false_eq_true, if_false, heq]
  | @drop key name j raws edited hkey hname _ ih =>
    intro members hmembers
    rw [members?_cons hkey, Option.map_eq_some_iff] at hmembers
    obtain ⟨members, hmembers, rfl⟩ := hmembers
    obtain ⟨left, hleft, heq⟩ := ih hmembers
    refine ⟨left, hleft, ?_⟩
    by_cases hnames : names.contains name = true
    · simp only [List.filter_cons, hnames, if_true, heq, hname, not_true_eq_false, decide_false,
        Bool.false_eq_true, if_false]
    · simp only [List.filter_cons, hnames, Bool.false_eq_true, if_false, heq]
  | @add key name j raws edited hkey hname _ ih =>
    intro members hmembers
    obtain ⟨left, hleft, heq⟩ := ih hmembers
    have hnames : names.contains name = false := by simpa using hname
    refine ⟨(name, j) :: left, by rw [members?_cons hkey, hleft, Option.map_some], ?_⟩
    simp only [List.filter_cons, hnames, Bool.false_eq_true, if_false, heq]

theorem filter_name_filter_names (hname : name ∈ names) (members : List (String × Json)) :
    ((members.filter fun m => names.contains m.1).filter fun m => m.1 = name) =
      members.filter fun m => m.1 = name := by
  rw [List.filter_filter]
  refine List.filter_congr fun m _ => ?_
  by_cases hm : m.1 = name
  · simp [hm, hname]
  · simp [hm]

/-- An edited object is read as the record without the fields that were left out. -/
theorem record?_of_edits (h : Edits names dropped j j') (hr : j.record? names = some r) :
    j'.record? names = some (r.without dropped) := by
  obtain ⟨h⟩ := h
  rw [record?] at hr ⊢
  · obtain ⟨members, hmembers, hr⟩ := Option.bind_eq_some_iff.1 hr
    obtain ⟨left, hleft, heq⟩ := h.exists_members? hmembers
    split at hr
    · next hcount =>
      obtain rfl := Option.some.inj hr
      -- what is left of the members with one name is some of those that were there
      have hcount' : names.all (fun name =>
          (left.filter fun m => m.1 = name).length ≤ 1) = true := by
        rw [List.all_eq_true] at hcount ⊢
        intro name hname
        have hle := of_decide_eq_true (hcount name hname)
        have hsub := (List.filter_sublist (p := fun m => m.1 ∉ dropped)
          (l := members.filter fun m => names.contains m.1)).filter (fun m => m.1 = name)
        rw [← heq, filter_name_filter_names hname, filter_name_filter_names hname] at hsub
        exact decide_eq_true (Nat.le_trans hsub.length_le hle)
      rw [hleft]
      simp only [Option.bind_eq_bind, Option.bind_some, hcount', if_true, heq]
      rfl
    · cases hr
  all_goals
    intro items h
    cases h

/-! ### Records -/

namespace Record

variable {α : Type} {default a : α} {read : Json → Option α}

theorem find?_without (r : Record) (dropped : List String) (name : String) :
    (r.without dropped).find? name = if name ∈ dropped then none else r.find? name := by
  rw [find?, find?, without, List.find?_filter]
  split
  · next hname =>
    rw [Option.map_eq_none_iff, List.find?_eq_none]
    intro m _ hm
    simp only [decide_eq_true_eq] at hm
    exact hm.1 (hm.2 ▸ hname)
  · next hname =>
    congr 2
    funext m
    by_cases hm : m.1 = name
    · simp [hm, hname]
    · simp [hm]

/-- A field that was written is read as before, unless it was left out. -/
theorem defaulted_without (h : r.required name read = some a) (default : α)
    (dropped : List String) :
    (r.without dropped).defaulted name default read =
      some (if name ∈ dropped then default else a) := by
  obtain ⟨j, hj, hread⟩ := Option.bind_eq_some_iff.1 h
  rw [defaulted, find?_without, hj]
  by_cases hname : name ∈ dropped
  · rw [if_pos hname, if_pos hname]
  · rw [if_neg hname, if_neg hname]
    exact hread

end Record

end ScriptBlocks.Json
