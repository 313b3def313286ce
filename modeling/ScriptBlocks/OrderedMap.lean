/-!
# Insertion-ordered maps

A finite map that remembers the order in which its keys arrived. Writing to a key that is already
there keeps its place and changes its value. The keys of a map are distinct, so two maps are equal
exactly when they list the same pairs in the same order.

## Main definitions

* `OrderedMap κ α` — the map, as its list of entries
* `OrderedMap.find?`, `OrderedMap.insert`, `OrderedMap.insertNew`, `OrderedMap.modify`,
  `OrderedMap.erase` — look-up and the writes
* `OrderedMap.ofList` — the map left by writing pairs from left to right
-/

namespace ScriptBlocks

/-- A map from `κ` to `α` whose entries are kept in the order of their first writing. -/
structure OrderedMap (κ : Type) (α : Type) where
  entries : List (κ × α)
  nodup : (entries.map Prod.fst).Nodup
deriving DecidableEq

namespace OrderedMap

variable {κ α β : Type}

@[ext] theorem ext {m n : OrderedMap κ α} (h : m.entries = n.entries) : m = n := by
  cases m; cases n; cases h; rfl

/-- The map without entries. -/
def empty : OrderedMap κ α := ⟨[], .nil⟩

instance : EmptyCollection (OrderedMap κ α) := ⟨empty⟩
instance : Inhabited (OrderedMap κ α) := ⟨empty⟩

/-- The keys, oldest first. -/
def keys (m : OrderedMap κ α) : List κ := m.entries.map Prod.fst

/-- The values, in the order of their keys. -/
def values (m : OrderedMap κ α) : List α := m.entries.map Prod.snd

def size (m : OrderedMap κ α) : Nat := m.entries.length

def isEmpty (m : OrderedMap κ α) : Bool := m.entries.isEmpty

/-- Applies `f` to every value; keys and order stay. -/
def mapValues (f : κ → α → β) (m : OrderedMap κ α) : OrderedMap κ β where
  entries := m.entries.map fun (k, a) => (k, f k a)
  nodup := by
    have : (m.entries.map fun (k, a) => (k, f k a)).map Prod.fst = m.entries.map Prod.fst := by
      simp [List.map_map, Function.comp_def]
    rw [this]; exact m.nodup

@[simp] theorem keys_mapValues (f : κ → α → β) (m : OrderedMap κ α) :
    (m.mapValues f).keys = m.keys := by
  simp [keys, mapValues, List.map_map, Function.comp_def]

/-- Keeps the entries whose key passes the test. -/
def filterKeys (p : κ → Bool) (m : OrderedMap κ α) : OrderedMap κ α where
  entries := m.entries.filter fun e => p e.1
  nodup := m.nodup.sublist (List.filter_sublist.map _)

theorem keys_filterKeys (p : κ → Bool) (m : OrderedMap κ α) :
    (m.filterKeys p).keys = m.keys.filter p := by
  simp [keys, filterKeys, List.filter_map, Function.comp_def]

variable [DecidableEq κ]

/-- The value written to `k`, if any. -/
def find? (m : OrderedMap κ α) (k : κ) : Option α :=
  (m.entries.find? fun e => e.1 = k).map Prod.snd

def contains (m : OrderedMap κ α) (k : κ) : Bool := m.entries.any fun e => e.1 = k

theorem contains_iff {m : OrderedMap κ α} {k : κ} : m.contains k = true ↔ k ∈ m.keys := by
  simp only [contains, keys, List.any_eq_true, decide_eq_true_eq, List.mem_map]

/-- Changes the value at `k` by `f`, if there is one. -/
def modify (m : OrderedMap κ α) (k : κ) (f : α → α) : OrderedMap κ α :=
  m.mapValues fun k' a => if k' = k then f a else a

/-- Writes `a` to a key that has no value yet, as the youngest entry. -/
def push (m : OrderedMap κ α) (k : κ) (a : α) (fresh : k ∉ m.keys) : OrderedMap κ α where
  entries := m.entries ++ [(k, a)]
  nodup := by
    rw [List.map_append, List.nodup_append]
    refine ⟨m.nodup, by simp, ?_⟩
    rintro x hx y hy rfl
    simp only [List.map_cons, List.map_nil, List.mem_singleton] at hy
    exact fresh (hy ▸ hx)

/-- Writes `a` to `k`: in place when `k` has a value, as the youngest entry otherwise. -/
def insert (m : OrderedMap κ α) (k : κ) (a : α) : OrderedMap κ α :=
  if h : m.contains k then m.modify k fun _ => a
  else m.push k a fun hk => h (contains_iff.2 hk)

/-- Writes `a` to `k` unless `k` has a value already. -/
def insertNew (m : OrderedMap κ α) (k : κ) (a : α) : OrderedMap κ α :=
  if h : m.contains k then m else m.push k a fun hk => h (contains_iff.2 hk)

/-- Removes `k` and its value. -/
def erase (m : OrderedMap κ α) (k : κ) : OrderedMap κ α := m.filterKeys fun k' => k' ≠ k

/-- Writes pairs one after the other, the later ones over the earlier ones. -/
def insertMany (m : OrderedMap κ α) (pairs : List (κ × α)) : OrderedMap κ α :=
  pairs.foldl (fun m e => m.insert e.1 e.2) m

/-- The map left by writing `pairs` from left to right into the empty map. -/
def ofList (pairs : List (κ × α)) : OrderedMap κ α := insertMany ∅ pairs

/-- Whether two maps have the same keys with values that are the same, in whatever order. -/
def sameBy (same : α → α → Bool) (m n : OrderedMap κ α) : Bool :=
  m.size = n.size && m.entries.all fun e => (n.find? e.1).any (same e.2)

/-! ### Looking up what was written -/

@[simp] theorem find?_empty (k : κ) : (∅ : OrderedMap κ α).find? k = none := rfl

theorem find?_isSome (m : OrderedMap κ α) (k : κ) : (m.find? k).isSome = m.contains k := by
  rw [Bool.eq_iff_iff]
  simp [find?, contains, List.find?_isSome]

theorem find?_eq_none {m : OrderedMap κ α} {k : κ} : m.find? k = none ↔ k ∉ m.keys := by
  rw [← contains_iff, ← find?_isSome]
  cases m.find? k <;> simp

theorem find?_mapValues (f : κ → α → β) (m : OrderedMap κ α) (k : κ) :
    (m.mapValues f).find? k = (m.find? k).map (f k) := by
  obtain ⟨entries, nodup⟩ := m
  simp only [find?, mapValues]
  clear nodup
  induction entries with
  | nil => rfl
  | cons e rest ih => by_cases h : e.1 = k <;> simp_all

theorem find?_modify (m : OrderedMap κ α) (k k' : κ) (f : α → α) :
    (m.modify k f).find? k' = if k' = k then (m.find? k').map f else m.find? k' := by
  rw [modify, find?_mapValues]
  by_cases h : k' = k <;> simp [h]

@[simp] theorem keys_modify (m : OrderedMap κ α) (k : κ) (f : α → α) :
    (m.modify k f).keys = m.keys := keys_mapValues ..

theorem find?_push (m : OrderedMap κ α) (k k' : κ) (a : α) (fresh : k ∉ m.keys) :
    (m.push k a fresh).find? k' = if k' = k then some a else m.find? k' := by
  by_cases h : k' = k
  · subst h
    have none := find?_eq_none.2 fresh
    simp only [find?, Option.map_eq_none_iff] at none
    simp [find?, push, List.find?_append, none]
  · have : ¬k = k' := fun e => h e.symm
    simp [find?, push, List.find?_append, h, this]

theorem find?_insert (m : OrderedMap κ α) (k k' : κ) (a : α) :
    (m.insert k a).find? k' = if k' = k then some a else m.find? k' := by
  unfold insert
  split
  · next h =>
    rw [find?_modify]
    by_cases e : k' = k
    · subst e
      rw [← find?_isSome, Option.isSome_iff_exists] at h
      obtain ⟨b, hb⟩ := h
      simp [hb]
    · simp [e]
  · exact find?_push ..

@[simp] theorem find?_insert_self (m : OrderedMap κ α) (k : κ) (a : α) :
    (m.insert k a).find? k = some a := by simp [find?_insert]

theorem find?_insert_of_ne (m : OrderedMap κ α) {k k' : κ} (a : α) (h : k' ≠ k) :
    (m.insert k a).find? k' = m.find? k' := by simp [find?_insert, h]

theorem find?_insertNew (m : OrderedMap κ α) (k k' : κ) (a : α) :
    (m.insertNew k a).find? k' =
      if k' = k then some ((m.find? k).getD a) else m.find? k' := by
  unfold insertNew
  split
  · next h =>
    by_cases e : k' = k
    · subst e
      rw [← find?_isSome, Option.isSome_iff_exists] at h
      obtain ⟨b, hb⟩ := h
      simp [hb]
    · simp [e]
  · next h =>
    rw [find?_push]
    have none := find?_eq_none.2 fun hk => h (contains_iff.2 hk)
    simp [none]

theorem find?_filterKeys (p : κ → Bool) (m : OrderedMap κ α) (k : κ) :
    (m.filterKeys p).find? k = if p k then m.find? k else none := by
  obtain ⟨entries, nodup⟩ := m
  simp only [find?, filterKeys]
  clear nodup
  induction entries with
  | nil => simp
  | cons e rest ih =>
    by_cases h : e.1 = k
    · subst h
      by_cases hp : p e.1
      · simp [hp]
      · simpa [hp] using ih
    · by_cases hp : p e.1 <;> simp_all

theorem find?_erase (m : OrderedMap κ α) (k k' : κ) :
    (m.erase k).find? k' = if k' = k then none else m.find? k' := by
  rw [erase, find?_filterKeys]
  by_cases h : k' = k <;> simp [h]

/-- Looking up finds exactly the entries. -/
theorem find?_eq_some_iff {m : OrderedMap κ α} {k : κ} {a : α} :
    m.find? k = some a ↔ (k, a) ∈ m.entries := by
  obtain ⟨entries, nodup⟩ := m
  simp only [find?]
  induction entries with
  | nil => simp
  | cons e rest ih =>
    rw [List.map_cons, List.nodup_cons] at nodup
    by_cases h : e.1 = k
    · subst h
      have : (e.1, a) ∉ rest := fun hm => nodup.1 (List.mem_map.2 ⟨_, hm, rfl⟩)
      simp [Prod.ext_iff, this, eq_comm]
    · have : ¬(k, a) = e := fun he => h (by rw [← he])
      simp_all

end OrderedMap

end ScriptBlocks
