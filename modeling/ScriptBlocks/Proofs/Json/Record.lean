import ScriptBlocks.Document.Scalar
import ScriptBlocks.Proofs.Json.Spelling
import ScriptBlocks.Proofs.OrderedMap

/-!
# Records are read as they are written

The parts that the documents of records are put together from: each is read back as what it was
written for, and each can be written down. For a record this comes down to the names of its fields,
which have to be distinct; for a map, to the distinctness of its keys.

## Main statements

* `Json.record?_ofMembers` — a record is read with the members that it was written with
* `Json.variant?_ofMembers` — a variant is read with its tag
* `Json.entries?_toJson` — a map is read with its entries in their order
* `Json.Proper.ofMembers` — an object of proper documents is proper
-/

namespace ScriptBlocks

/-- A list is read back when each of its items is. -/
theorem mapM_map_eq_some {α β : Type} {f : β → Option α} {g : α → β} {l : List α}
    (h : ∀ a ∈ l, f (g a) = some a) : (l.map g).mapM f = some l := by
  induction l with
  | nil => rfl
  | cons a l ih =>
    obtain ⟨ha, hl⟩ := List.forall_mem_cons.1 h
    rw [List.map_cons, List.mapM_cons, ha, ih hl]
    rfl

namespace Json

variable {α : Type} {members : List (String × Json)} {name : String} {j : Json} {depth : Nat}

/-! ### Scalars -/

theorem rawText?_escape (s : String) : rawText? (escape s.toList) = some s := by
  rw [rawText?, unescape_escape, Option.map_some, String.ofList_toList]

@[simp] theorem text?_ofText (s : String) : (ofText s).text? = some s := rawText?_escape s

theorem integer?_ofInt (i : Int) : (⟨i < 0, i.natAbs, [], none⟩ : Number).integer? = some i := by
  rw [Number.integer?]
  by_cases hi : i < 0
  · simp only [hi, decide_true, true_and]
    rw [if_pos (by omega)]
    simp only [if_true]
    congr 1
    omega
  · simp only [hi, decide_false, Bool.false_eq_true, false_and, not_false_eq_true, and_self,
      if_true, if_false]
    congr 1
    omega

theorem natural?_ofNat {n : Nat} (hn : n < wordLimit) : (ofNat n).natural? = some n := by
  have hinteger : (⟨false, n, [], none⟩ : Number).integer? = some (.ofNat n) := by
    rw [← integer?_ofInt (.ofNat n)]
    rfl
  rw [ofNat, natural?, Number.natural?, hinteger]
  exact if_pos hn

/-- An optional value is read back, when its document is not that of its absence. -/
theorem nullable?_ofOption {read : Json → Option α} {write : α → Json} {o : Option α}
    (hnull : ∀ a, write a ≠ null) (hread : ∀ a ∈ o, read (write a) = some a) :
    nullable? read (ofOption write o) = some o := by
  cases o with
  | none => rfl
  | some a =>
    rw [ofOption, nullable?, hread a rfl, Option.map_some]
    exact hnull a

theorem list?_map {read : Json → Option α} {write : α → Json} {l : List α}
    (hread : ∀ a ∈ l, read (write a) = some a) : list? read (array (l.map write)) = some l :=
  mapM_map_eq_some hread

/-! ### Objects -/

theorem members?_ofMembers (members : List (String × Json)) :
    (ofMembers members).members? = some members := by
  refine mapM_map_eq_some fun m _ => ?_
  simp only [rawText?_escape, Option.map_some]

/-- A record is read with the members that it was written with, if they are some of its fields in
their order. -/
theorem record?_ofMembers_of_sublist {names : List String} (hnodup : names.Nodup)
    (hnames : (members.map Prod.fst).Sublist names) :
    (ofMembers members).record? names = some ⟨members, false⟩ := by
  -- the reader refuses a record in which a field is given twice
  have hcount : names.all (fun name => (members.filter fun m => m.1 = name).length ≤ 1) = true := by
    rw [List.all_eq_true]
    intro name _
    have hle := List.nodup_iff_count.1 (hnodup.sublist hnames) name
    rw [List.count_eq_countP, List.countP_map, List.countP_eq_length_filter] at hle
    simpa [Function.comp_def, beq_eq_decide] using hle
  have hfilter : (members.filter fun m => names.contains m.1) = members := by
    refine List.filter_eq_self.2 fun m hm => ?_
    exact List.contains_iff_mem.2 (hnames.subset (List.mem_map_of_mem hm))
  rw [record?]
  · rw [members?_ofMembers]
    simp only [Option.bind_eq_bind, Option.bind_some, hcount, if_true, hfilter]
  · intro items h
    exact nomatch h

/-- A record in which no field is missing. -/
theorem record?_ofMembers (names : List String) (hnodup : names.Nodup)
    (hnames : members.map Prod.fst = names) :
    (ofMembers members).record? names = some ⟨members, false⟩ :=
  record?_ofMembers_of_sublist hnodup (hnames ▸ List.Sublist.refl _)

/-- A map is read with its entries in their order. -/
theorem entries?_toJson {read : Json → Option α} {write : α → Json} {m : OrderedMap String α}
    (hread : ∀ a ∈ m.values, read (write a) = some a) :
    entries? read (m.toJson write) = some m := by
  have hentries : (m.entries.map fun e => (e.1, write e.2)).mapM
      (fun e => (read e.2).map (e.1, ·)) = some m.entries := by
    refine mapM_map_eq_some fun e he => ?_
    rw [hread e.2 (List.mem_map_of_mem he), Option.map_some]
  rw [entries?, OrderedMap.toJson, members?_ofMembers]
  simp only [Option.bind_eq_bind, Option.bind_some, hentries]
  exact congrArg some m.ofList_entries

/-! ### Variants -/

theorem isTangible_ofText (depth : Nat) (s : String) : isTangible depth (ofText s) = true := by
  rw [ofText, isTangible, unescape_escape]
  rfl

theorem isTangible_ofNat {n : Nat} (hn : n < wordLimit) : isTangible depth (ofNat n) = true := by
  rw [ofNat, isTangible, Number.float?, if_pos ⟨rfl, rfl, hn⟩]
  rfl

theorem isTangible_ofOption {write : α → Json} {o : Option α}
    (h : ∀ a ∈ o, isTangible depth (write a) = true) :
    isTangible depth (ofOption write o) = true := by
  cases o with
  | none => rw [ofOption, isTangible]
  | some a => exact h a rfl

theorem membersTangible_map (h : ∀ m ∈ members, isTangible depth m.2 = true) :
    membersTangible depth (members.map fun (k, j) => (escape k.toList, j)) = true := by
  induction members with
  | nil => rw [List.map_nil, membersTangible]
  | cons m members ih =>
    obtain ⟨hm, hmembers⟩ := List.forall_mem_cons.1 h
    simp only [List.map_cons, membersTangible, unescape_escape, hm, ih hmembers]
    rfl

/-- A variant is read with its tag. The tag has its name to itself. -/
theorem variant?_ofMembers {tag value : String} (hdepth : depth ≠ 0)
    (htag : tag ∉ members.map Prod.fst) (h : ∀ m ∈ members, isTangible (depth - 1) m.2 = true) :
    (ofMembers ((tag, ofText value) :: members)).variant? tag depth =
      some (value, ofMembers members) := by
  obtain ⟨raws, hraws⟩ : ∃ raws, members.map (fun (k, j) => (escape k.toList, j)) = raws := ⟨_, rfl⟩
  have htangible :
      isTangible depth (object ((escape tag.toList, ofText value) :: raws)) = true := by
    rw [isTangible, membersTangible, unescape_escape, isTangible_ofText, ← hraws,
      membersTangible_map h]
    simpa using hdepth
  -- keys are compared as texts, so it is their written forms that have to be read first
  have hother : ∀ m ∈ raws, ¬ rawText? m.1 = some tag := by
    intro m hm hname
    obtain ⟨e, he, rfl⟩ := List.mem_map.1 (hraws ▸ hm)
    rw [rawText?_escape] at hname
    exact htag (Option.some.inj hname ▸ List.mem_map_of_mem he)
  have hnone : raws.filter (fun m => rawText? m.1 = some tag) = [] :=
    List.filter_eq_nil_iff.2 fun m hm => by simpa using hother m hm
  have hall : raws.filter (fun m => !decide (rawText? m.1 = some tag)) = raws :=
    List.filter_eq_self.2 fun m hm => by simpa using hother m hm
  rw [ofMembers, ofMembers, List.map_cons, hraws]
  simp only [variant?, htangible, List.filter_cons, rawText?_escape, decide_true, if_true, hnone,
    hall, text?_ofText, Option.map_some, Bool.not_true, Bool.false_eq_true, if_false]

/-! ### Proper documents -/

theorem proper_ofText (s : String) : (ofText s).Proper := .string _

theorem proper_ofNat (n : Nat) : (ofNat n).Proper := .number nofun

theorem proper_ofInt (i : Int) : (ofInt i).Proper := .number nofun

theorem Proper.ofOption {write : α → Json} {o : Option α} (h : ∀ a ∈ o, (write a).Proper) :
    (Json.ofOption write o).Proper := by
  cases o with
  | none => exact .null
  | some a => exact h a rfl

theorem Proper.map {write : α → Json} {l : List α} (h : ∀ a ∈ l, (write a).Proper) :
    (Json.array (l.map write)).Proper := by
  refine .array fun j hj => ?_
  obtain ⟨a, ha, rfl⟩ := List.mem_map.1 hj
  exact h a ha

theorem Proper.ofMembers (h : ∀ m ∈ members, m.2.Proper) : (Json.ofMembers members).Proper := by
  refine .object (fun m hm => ?_) fun m hm => ?_
  · obtain ⟨e, -, rfl⟩ := List.mem_map.1 hm
    exact ⟨_, rfl⟩
  · obtain ⟨e, he, rfl⟩ := List.mem_map.1 hm
    exact h e he

theorem Proper.toJson {write : α → Json} {m : OrderedMap String α}
    (h : ∀ a ∈ m.values, (write a).Proper) : (m.toJson write).Proper := by
  refine .ofMembers fun m hm => ?_
  obtain ⟨e, he, rfl⟩ := List.mem_map.1 hm
  exact h e.2 (List.mem_map_of_mem he)

end Json

end ScriptBlocks
