import ScriptBlocks.OrderedMap

/-!
# What the writes do to the values of a map

Which values a map lists after a write, and where. Changes to all values go past writes to keys
whose values they spare.

## Main statements

* `OrderedMap.exists_values_modify` — changing a value leaves the others in their places
* `OrderedMap.values_insertNew` — a key that is written first comes last
* `OrderedMap.mem_of_find?_ofList` — nothing is found in a map that was not written
* `OrderedMap.find?_insertMany_of_mem` — and everything that was
* `OrderedMap.ofList_entries` — a map is written by writing its entries
* `OrderedMap.modify_mapValues`, `OrderedMap.insert_mapValues` — a change goes past a write
-/

namespace ScriptBlocks.OrderedMap

variable {κ α : Type} [DecidableEq κ]

theorem mem_values_of_find? {m : OrderedMap κ α} {k : κ} {a : α} (h : m.find? k = some a) :
    a ∈ m.values :=
  List.mem_map.2 ⟨(k, a), find?_eq_some_iff.1 h, rfl⟩

/-- The values on both sides of a changed one stay as they are. -/
theorem exists_values_modify {m : OrderedMap κ α} {k : κ} {a : α} (h : m.find? k = some a)
    (f : α → α) : ∃ before after, m.values = before ++ a :: after ∧
      (m.modify k f).values = before ++ f a :: after := by
  obtain ⟨left, right, heq⟩ := List.append_of_mem (find?_eq_some_iff.1 h)
  have hnodup := m.nodup
  rw [heq, List.map_append, List.map_cons, List.nodup_append, List.nodup_cons] at hnodup
  have hleft : left.map (fun e => if e.1 = k then f e.2 else e.2) = left.map Prod.snd := by
    refine List.map_congr_left fun e he => if_neg ?_
    exact hnodup.2.2 _ (List.mem_map_of_mem he) _ List.mem_cons_self
  have hright : right.map (fun e => if e.1 = k then f e.2 else e.2) = right.map Prod.snd := by
    refine List.map_congr_left fun e he => if_neg fun hk => ?_
    exact hnodup.2.1.1 (List.mem_map.2 ⟨e, he, hk⟩)
  refine ⟨left.map Prod.snd, right.map Prod.snd, ?_, ?_⟩
  · rw [values, heq, List.map_append, List.map_cons]
  · rw [values, modify, mapValues, List.map_map, heq, List.map_append, List.map_cons, ← hleft,
      ← hright]
    simp only [Function.comp_def, if_true]

theorem values_insertNew (m : OrderedMap κ α) (k : κ) (a : α) :
    (m.insertNew k a).values = m.values ∨ (m.insertNew k a).values = m.values ++ [a] := by
  rw [insertNew]
  split
  · exact .inl rfl
  · refine .inr ?_
    rw [values, push, List.map_append, values]
    rfl

theorem mem_of_find?_insertMany {m : OrderedMap κ α} {pairs : List (κ × α)} {k : κ} {a : α}
    (h : (m.insertMany pairs).find? k = some a) : m.find? k = some a ∨ (k, a) ∈ pairs := by
  induction pairs generalizing m with
  | nil => exact .inl h
  | cons e rest ih =>
    rcases ih (m := m.insert e.1 e.2) h with h | h
    · rw [find?_insert] at h
      split at h
      · next hk =>
        cases h
        exact .inr (hk ▸ List.mem_cons_self)
      · exact .inl h
    · exact .inr (List.mem_cons_of_mem _ h)

theorem mem_of_find?_ofList {pairs : List (κ × α)} {k : κ} {a : α}
    (h : (ofList pairs).find? k = some a) : (k, a) ∈ pairs :=
  (mem_of_find?_insertMany h).resolve_left nofun

theorem mem_of_mem_values_ofList {pairs : List (κ × α)} {x : α} (h : x ∈ (ofList pairs).values) :
    ∃ k, (k, x) ∈ pairs := by
  obtain ⟨⟨k, x⟩, he, rfl⟩ := List.mem_map.1 h
  exact ⟨k, mem_of_find?_ofList (find?_eq_some_iff.2 he)⟩

theorem find?_insertMany_of_not_mem {m : OrderedMap κ α} {pairs : List (κ × α)} {k : κ}
    (h : k ∉ pairs.map Prod.fst) : (m.insertMany pairs).find? k = m.find? k := by
  induction pairs generalizing m with
  | nil => rfl
  | cons e rest ih =>
    rw [List.map_cons, List.mem_cons, not_or] at h
    exact (ih h.2).trans (m.find?_insert_of_ne e.2 h.1)

/-- Of pairs with distinct keys each one is found. -/
theorem find?_insertMany_of_mem {m : OrderedMap κ α} {pairs : List (κ × α)}
    (hnodup : (pairs.map Prod.fst).Nodup) {k : κ} {a : α} (h : (k, a) ∈ pairs) :
    (m.insertMany pairs).find? k = some a := by
  induction pairs generalizing m with
  | nil => exact absurd h List.not_mem_nil
  | cons e rest ih =>
    obtain ⟨hfresh, hnodup⟩ := List.nodup_cons.1 hnodup
    rcases List.mem_cons.1 h with rfl | h
    · exact (find?_insertMany_of_not_mem hfresh).trans (m.find?_insert_self k a)
    · exact ih hnodup h

/-- Pairs with distinct new keys are appended as they are. -/
theorem entries_insertMany {m : OrderedMap κ α} {pairs : List (κ × α)}
    (hnodup : (pairs.map Prod.fst).Nodup) (hfresh : ∀ k ∈ pairs.map Prod.fst, k ∉ m.keys) :
    (m.insertMany pairs).entries = m.entries ++ pairs := by
  induction pairs generalizing m with
  | nil => exact (List.append_nil _).symm
  | cons e rest ih =>
    obtain ⟨hnotin, hnodup⟩ := List.nodup_cons.1 hnodup
    have hcontains : ¬ m.contains e.1 = true := fun h =>
      hfresh e.1 List.mem_cons_self (contains_iff.1 h)
    have hentries : (m.insert e.1 e.2).entries = m.entries ++ [e] := by
      rw [insert, dif_neg hcontains]
      rfl
    have hfresh' : ∀ k ∈ rest.map Prod.fst, k ∉ (m.insert e.1 e.2).keys := by
      intro k hk hmem
      rw [keys, hentries, List.map_append] at hmem
      rcases List.mem_append.1 hmem with hmem | hmem
      · exact hfresh k (List.mem_cons_of_mem _ hk) hmem
      · exact hnotin (List.mem_singleton.1 hmem ▸ hk)
    exact (ih hnodup hfresh').trans (by rw [hentries, List.append_assoc, List.singleton_append])

/-- Writing the entries of a map again gives the map. -/
theorem ofList_entries (m : OrderedMap κ α) : ofList m.entries = m :=
  ext ((entries_insertMany m.nodup fun _ _ => List.not_mem_nil).trans (List.nil_append _))

/-! ### Changes to all values -/

omit [DecidableEq κ] in
theorem mapValues_mapValues (f g : κ → α → α) (m : OrderedMap κ α) :
    (m.mapValues f).mapValues g = m.mapValues fun k a => g k (f k a) := by
  refine ext ?_
  simp only [mapValues, List.map_map]
  rfl

/-- Only what is done to the values that are there matters. -/
theorem mapValues_congr_of_find? {f g : κ → α → α} {m : OrderedMap κ α}
    (h : ∀ k a, m.find? k = some a → f k a = g k a) : m.mapValues f = m.mapValues g := by
  refine ext (List.map_congr_left fun e he => ?_)
  exact congrArg (Prod.mk e.1) (h e.1 e.2 (find?_eq_some_iff.2 he))

theorem mapValues_congr {f g : κ → α → α} (m : OrderedMap κ α) (h : ∀ k a, f k a = g k a) :
    m.mapValues f = m.mapValues g :=
  mapValues_congr_of_find? fun k a _ => h k a

/-- A change that changes none of the values that are there. -/
theorem mapValues_eq_self {f : κ → α → α} {m : OrderedMap κ α}
    (h : ∀ k a, m.find? k = some a → f k a = a) : m.mapValues f = m :=
  (mapValues_congr_of_find? h).trans (ext (List.map_id _))

theorem modify_mapValues {f : κ → α → α} {k : κ} (hk : f k = id) (m : OrderedMap κ α) (g : α → α) :
    (m.mapValues f).modify k g = (m.modify k g).mapValues f := by
  rw [modify, modify, mapValues_mapValues, mapValues_mapValues]
  refine m.mapValues_congr fun k' a => ?_
  by_cases h : k' = k
  · simp [h, hk]
  · simp [h]

/-- A value that was just written is changed in the same place. -/
theorem modify_insert (m : OrderedMap κ α) (k : κ) (a : α) (g : α → α) :
    (m.insert k a).modify k g = m.insert k (g a) := by
  rw [insert, insert]
  by_cases h : m.contains k = true
  · rw [dif_pos h, dif_pos h, modify, modify, modify, mapValues_mapValues]
    refine m.mapValues_congr fun k' a' => ?_
    by_cases hk : k' = k
    · simp [hk]
    · simp [hk]
  · rw [dif_neg h, dif_neg h]
    have hother : m.entries.map (fun e => (e.1, if e.1 = k then g e.2 else e.2)) = m.entries := by
      refine (List.map_congr_left fun e he => ?_).trans (List.map_id _)
      have hne : e.1 ≠ k := fun hk => h (contains_iff.2 (List.mem_map.2 ⟨e, he, hk⟩))
      rw [if_neg hne]
      rfl
    refine ext ?_
    simp only [push, modify, mapValues, List.map_append, List.map_cons, List.map_nil, hother, if_true]

theorem contains_mapValues (f : κ → α → α) (m : OrderedMap κ α) (k : κ) :
    (m.mapValues f).contains k = m.contains k := by
  rw [Bool.eq_iff_iff, contains_iff, contains_iff, keys_mapValues]

theorem insert_mapValues {f : κ → α → α} {k : κ} (hk : f k = id) (m : OrderedMap κ α) (a : α) :
    (m.mapValues f).insert k a = (m.insert k a).mapValues f := by
  rw [insert, insert]
  by_cases h : m.contains k = true
  · rw [dif_pos h, dif_pos ((contains_mapValues f m k).trans h), modify_mapValues hk]
  · rw [dif_neg h, dif_neg fun h' => h ((contains_mapValues f m k).symm.trans h')]
    refine ext ?_
    simp only [push, mapValues, List.map_append, List.map_cons, List.map_nil, hk, id]

omit [DecidableEq κ] in
theorem filterKeys_mapValues (f : κ → α → α) (p : κ → Bool) (m : OrderedMap κ α) :
    (m.mapValues f).filterKeys p = (m.filterKeys p).mapValues f := by
  refine ext ?_
  simp only [filterKeys, mapValues, List.filter_map]
  rfl

end ScriptBlocks.OrderedMap
