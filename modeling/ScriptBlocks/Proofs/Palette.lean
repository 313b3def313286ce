import ScriptBlocks.Dialect
import ScriptBlocks.Palette.Basic

/-!
# How the palette is arranged

Categories are added one after the other, and a name that is there already is passed over. What
becomes of a name is thus decided by the first descriptor that has something to show for it, be it
entries or the marker of the host. No form is lost on the way and none is listed twice.

The marker counts wherever it stands. A descriptor without forms and without a marker shows nothing,
so it leaves the name to the next descriptor; if that one is marked, the category is shown without
entries although the first descriptor of its name does not ask for it.

## Main definitions

* `PaletteOptions.isDynamic` — the first descriptor of the name is marked
* `PaletteOptions.isUsed` — a descriptor has something to show
* `Palette.listing` — all entries, with the names of their categories
* `Palette.Arranges` — the palette arranges the forms of a vocabulary as it is configured to

## Main statements

* `PaletteOptions.find?_addCategories`, `PaletteOptions.names_addCategories` — what is added, in
  which order
* `Vocabulary.palette_arranges` — every palette arranges its forms
* `Vocabulary.marked_descriptor_shown` — a marker on a later descriptor counts
-/

namespace ScriptBlocks

/-! ### Lists -/

theorem findSome?_of_first {α β : Type} {l : List α} {p : α → Bool} {g : α → Option β} {a : α}
    {b : β} (ha : l.find? p = some a) (hb : g a = some b) :
    (l.findSome? fun x => if p x then g x else none) = some b := by
  induction l with
  | nil => exact nomatch ha
  | cons x l ih =>
    rw [List.find?_cons] at ha
    rw [List.findSome?_cons]
    split at ha
    · next hx =>
      obtain rfl := Option.some.inj ha
      rw [if_pos hx, hb]
    · next hx =>
      rw [if_neg (by simp [hx])]
      exact ih ha

section keys

variable {α β κ : Type} {l : List α} {key : α → κ} {a : α}

/-- If nothing comes of the other keys, all comes of one. -/
theorem flatMap_eq_of_nodup_keys {g : α → List β} (hnodup : (l.map key).Nodup) (ha : a ∈ l)
    (h : ∀ b ∈ l, key b ≠ key a → g b = []) : l.flatMap g = g a := by
  induction l with
  | nil => exact absurd ha List.not_mem_nil
  | cons b l ih =>
    obtain ⟨hfresh, hnodup⟩ := List.nodup_cons.1 hnodup
    obtain ⟨hb, hl⟩ := List.forall_mem_cons.1 h
    rw [List.flatMap_cons]
    rcases List.mem_cons.1 ha with rfl | ha
    · have hrest : l.flatMap g = [] := by
        refine List.flatMap_eq_nil_iff.2 fun c hc => hl c hc fun heq => hfresh ?_
        exact heq ▸ List.mem_map_of_mem hc
      rw [hrest, List.append_nil]
    · rw [hb fun heq => hfresh (heq ▸ List.mem_map_of_mem ha), List.nil_append, ih hnodup ha hl]

theorem filter_eq_of_nodup_keys {p : α → Bool} (hnodup : (l.map key).Nodup) (ha : a ∈ l)
    (h : ∀ b ∈ l, key b ≠ key a → p b = false) : l.filter p = [a].filter p := by
  have hflat (l : List α) : l.filter p = l.flatMap fun b => [b].filter p := by
    induction l with
    | nil => rfl
    | cons b l ih => rw [List.flatMap_cons, ← ih, ← List.filter_append, List.singleton_append]
  rw [hflat]
  exact flatMap_eq_of_nodup_keys hnodup ha fun b hb hne => by simp [h b hb hne]

theorem find?_eq_of_nodup_keys [DecidableEq κ] (hnodup : (l.map key).Nodup) (ha : a ∈ l) :
    l.find? (fun b => key b = key a) = some a := by
  rw [← List.head?_filter, filter_eq_of_nodup_keys hnodup ha fun b _ hne => decide_eq_false hne]
  simp

end keys

namespace PaletteOptions

/-! ### Adding categories -/

section addition

variable {shown : List PaletteCategory} {name name' : String} {category? : Option PaletteCategory}

theorem any_name_iff : (shown.any fun c => c.name = name) = true ↔
    name ∈ shown.map PaletteCategory.name := by
  simp [List.any_eq_true, List.mem_map]

theorem nodup_addCategory (hname : ∀ c ∈ category?, c.name = name)
    (h : (shown.map PaletteCategory.name).Nodup) :
    ((addCategory shown name category?).map PaletteCategory.name).Nodup := by
  rw [addCategory]
  split
  · exact h
  · next hfresh =>
    rw [any_name_iff] at hfresh
    cases category? with
    | none => rwa [Option.toList_none, List.append_nil]
    | some c =>
      rw [Option.toList_some, List.map_append, List.nodup_append]
      refine ⟨h, by simp, fun x hx y hy => ?_⟩
      rintro rfl
      rw [List.map_singleton, List.mem_singleton, hname c rfl] at hy
      exact hfresh (hy ▸ hx)

/-- A category that was there stays, and makes others of its name be passed over. -/
theorem find?_addCategory (hname : ∀ c ∈ category?, c.name = name) :
    (addCategory shown name category?).find? (fun c => c.name = name') =
      (shown.find? fun c => c.name = name').or (if name = name' then category? else none) := by
  rw [addCategory]
  split
  · next hthere =>
    by_cases heq : name = name'
    · subst heq
      have hsome : (shown.find? fun c => c.name = name).isSome = true := by
        rw [List.find?_isSome, ← List.any_eq_true]
        exact hthere
      obtain ⟨c, hc⟩ := Option.isSome_iff_exists.1 hsome
      rw [hc, Option.some_or]
    · rw [if_neg heq, Option.or_none]
  · rw [List.find?_append]
    congr 1
    cases category? with
    | none => simp
    | some c =>
      rw [Option.toList_some, List.find?_singleton, hname c rfl]
      simp

end addition

section additions

variable {ι : Type} {name : ι → String} {category? : ι → Option PaletteCategory}
  {shown : List PaletteCategory} {l : List ι}

/-- Adds the categories of several names. -/
def addCategories (name : ι → String) (category? : ι → Option PaletteCategory)
    (shown : List PaletteCategory) (l : List ι) : List PaletteCategory :=
  l.foldl (fun shown x => addCategory shown (name x) (category? x)) shown

theorem nodup_addCategories (hname : ∀ x, ∀ c ∈ category? x, c.name = name x)
    (h : (shown.map PaletteCategory.name).Nodup) :
    ((addCategories name category? shown l).map PaletteCategory.name).Nodup := by
  induction l generalizing shown with
  | nil => exact h
  | cons x l ih => exact ih (nodup_addCategory (hname x) h)

/-- The category of a name is the first one that there is. -/
theorem find?_addCategories (hname : ∀ x, ∀ c ∈ category? x, c.name = name x) (name' : String) :
    (addCategories name category? shown l).find? (fun c => c.name = name') =
      (shown.find? fun c => c.name = name').or
        (l.findSome? fun x => if name x = name' then category? x else none) := by
  induction l generalizing shown with
  | nil => rw [List.findSome?_nil, Option.or_none]; rfl
  | cons x l ih =>
    have hcons := @ih (addCategory shown (name x) (category? x))
    rw [find?_addCategory (hname x), Option.or_assoc] at hcons
    refine hcons.trans (congrArg _ ?_)
    rw [List.findSome?_cons]
    cases (if name x = name' then category? x else none) <;> rfl

/-- The names are added in their order, each for the first time that it has a category. -/
theorem names_addCategories (hname : ∀ x, ∀ c ∈ category? x, c.name = name x) :
    (addCategories name category? shown l).map PaletteCategory.name =
      shown.map PaletteCategory.name ++
        (((l.filter fun x => (category? x).isSome).map name).filter fun name =>
          name ∉ shown.map PaletteCategory.name).eraseDups := by
  induction l generalizing shown with
  | nil => exact (List.append_nil _).symm
  | cons x l ih =>
    refine (@ih (addCategory shown (name x) (category? x))).trans ?_
    by_cases hthere : name x ∈ shown.map PaletteCategory.name
    · have hpass : addCategory shown (name x) (category? x) = shown :=
        if_pos (any_name_iff.2 hthere)
      rw [hpass, List.filter_cons]
      split
      · rw [List.map_cons, List.filter_cons_of_neg (by simpa using hthere)]
      · rfl
    · have hadd : addCategory shown (name x) (category? x) = shown ++ (category? x).toList :=
        if_neg fun h => hthere (any_name_iff.1 h)
      rw [hadd]
      cases hc : category? x with
      | none => rw [Option.toList_none, List.append_nil, List.filter_cons_of_neg (by simp [hc])]
      | some c =>
        rw [Option.toList_some, List.map_append, List.map_singleton, hname x c hc,
          List.filter_cons_of_pos (by simp [hc]), List.map_cons,
          List.filter_cons_of_pos (by simpa using hthere), List.eraseDups_cons, List.append_assoc,
          List.filter_filter, List.singleton_append]
        -- from here on the new name is one of those that are passed over
        refine congrArg (fun names => _ ++ name x :: List.eraseDups names) ?_
        refine List.filter_congr fun other _ => ?_
        rw [Bool.eq_iff_iff]
        simp [or_comm]

theorem mem_names_addCategories (hname : ∀ x, ∀ c ∈ category? x, c.name = name x)
    {name' : String} :
    name' ∈ (addCategories name category? [] l).map PaletteCategory.name ↔
      ∃ x ∈ l, name x = name' ∧ (category? x).isSome = true := by
  have hfind : (addCategories name category? [] l).find? (fun c => c.name = name') =
      l.findSome? fun x => if name x = name' then category? x else none := by
    rw [find?_addCategories hname, List.find?_nil, Option.none_or]
  rw [← any_name_iff, List.any_eq_true, ← List.find?_isSome, hfind, List.findSome?_isSome_iff]
  refine exists_congr fun x => and_congr_right fun _ => ?_
  split
  · next heq => exact (and_iff_right heq).symm
  · next hne => exact iff_of_false nofun fun h => hne h.1

end additions

/-! ### What there is to show -/

variable {o : PaletteOptions} {v : Vocabulary} {f : Form} {name : String}

/-- Whether the host fills a category: the first descriptor of its name is marked. -/
def isDynamic (o : PaletteOptions) (name : String) : Bool :=
  (o.categories.find? fun d => d.name = name).any fun d => d.custom.isSome

/-- Whether there is something to show for a descriptor: a marker, or forms that belong to the
category. -/
def isUsed (o : PaletteOptions) (v : Vocabulary) (d : CategoryOptions) : Bool :=
  d.custom.isSome || v.forms.any fun f => o.categoryOf f = d.name

theorem entriesIn_eq_nil_iff : o.entriesIn v name = [] ↔ ∀ f ∈ v.forms, o.categoryOf f ≠ name := by
  simp [entriesIn]

theorem configured?_of_marked {d : CategoryOptions} (h : d.custom.isSome = true) :
    o.configured? v d = some ⟨d.name, d.icon, d.colour, d.custom, []⟩ := by
  rw [configured?]
  simp [h, Option.isSome_iff_ne_none.1 h]

theorem configured?_of_unmarked {d : CategoryOptions} (h : d.custom = none) :
    o.configured? v d = if o.entriesIn v d.name = [] then none
      else some ⟨d.name, d.icon, d.colour, none, o.entriesIn v d.name⟩ := by
  rw [configured?]
  simp [h]

theorem isSome_configured? (d : CategoryOptions) : (o.configured? v d).isSome = o.isUsed v d := by
  rw [isUsed, Bool.eq_iff_iff]
  cases h : d.custom with
  | some marker => simp [configured?_of_marked (v := v) (o := o) (d := d) (by rw [h]; rfl)]
  | none =>
    rw [configured?_of_unmarked h]
    split
    · next hnil =>
      rw [entriesIn_eq_nil_iff] at hnil
      simpa using hnil
    · next hne =>
      rw [entriesIn_eq_nil_iff] at hne
      simpa using hne

/-- A category that is shown for a descriptor has its name, and its marker or its forms. -/
theorem configured?_eq_some {d : CategoryOptions} {c : PaletteCategory}
    (h : o.configured? v d = some c) : c.name = d.name ∧ c.custom = d.custom ∧
      (d.custom.isSome = true ∧ c.entries = [] ∨
        d.custom = none ∧ c.entries = o.entriesIn v d.name ∧ c.entries ≠ []) := by
  cases hcustom : d.custom with
  | some marker =>
    rw [configured?_of_marked (by rw [hcustom]; rfl)] at h
    rw [← Option.some.inj h]
    exact ⟨rfl, hcustom, .inl ⟨rfl, rfl⟩⟩
  | none =>
    rw [configured?_of_unmarked hcustom] at h
    split at h
    · exact nomatch h
    · next hne =>
      rw [← Option.some.inj h]
      exact ⟨rfl, rfl, .inr ⟨rfl, rfl, hne⟩⟩

end PaletteOptions

namespace Vocabulary

open PaletteOptions

variable {o : PaletteOptions} {v : Vocabulary} {f : Form} {name : String} {c : PaletteCategory}

/-! ### The categories of a palette -/

theorem palette_categories (v : Vocabulary) (o : PaletteOptions) :
    (v.palette o).categories = addCategories (fun name => name)
      (fun name => some (o.unconfigured v name))
      (addCategories CategoryOptions.name (o.configured? v) [] o.categories)
      (v.forms.map o.categoryOf) := rfl

theorem name_configured? (d : CategoryOptions) : ∀ c ∈ o.configured? v d, c.name = d.name :=
  fun _ hc => (configured?_eq_some hc).1

theorem name_unconfigured (name : String) :
    ∀ c ∈ some (o.unconfigured v name), c.name = name := by
  intro c hc
  rw [← Option.some.inj hc]
  rfl

theorem nodup_palette (v : Vocabulary) (o : PaletteOptions) :
    ((v.palette o).categories.map PaletteCategory.name).Nodup :=
  nodup_addCategories name_unconfigured (nodup_addCategories name_configured? .nil)

/-- The category of a name is that of its first descriptor with something to show, or else it is
there for the forms that name it. -/
theorem category?_palette (v : Vocabulary) (o : PaletteOptions) (name : String) :
    (v.palette o).category? name =
      (o.categories.findSome? fun d => if d.name = name then o.configured? v d else none).or
        (if name ∈ v.forms.map o.categoryOf then some (o.unconfigured v name) else none) := by
  have hnames (names : List String) :
      (names.findSome? fun x => if x = name then some (o.unconfigured v x) else none) =
        if name ∈ names then some (o.unconfigured v name) else none := by
    induction names with
    | nil => rfl
    | cons x names ih =>
      rw [List.findSome?_cons]
      by_cases hx : x = name
      · simp [hx]
      · simp [hx, ih, Ne.symm hx]
  rw [Palette.category?, palette_categories, find?_addCategories name_unconfigured,
    find?_addCategories name_configured?, List.find?_nil, Option.none_or, hnames]

/-- The names of the descriptors with something to show, and then those that only forms name. -/
theorem names_palette (v : Vocabulary) (o : PaletteOptions) :
    (v.palette o).categories.map PaletteCategory.name =
      ((o.categories.filter (o.isUsed v)).map CategoryOptions.name).eraseDups ++
        ((v.forms.map o.categoryOf).filter fun name =>
          name ∉ o.categories.map CategoryOptions.name).eraseDups := by
  have hall (names : List String) : names.filter (fun _ => true) = names :=
    List.filter_eq_self.2 fun _ _ => rfl
  have hconfigured : (addCategories CategoryOptions.name (o.configured? v) [] o.categories).map
      PaletteCategory.name =
        ((o.categories.filter (o.isUsed v)).map CategoryOptions.name).eraseDups := by
    rw [names_addCategories name_configured?, List.map_nil, List.nil_append]
    simp only [List.not_mem_nil, not_false_eq_true, decide_true, hall, isSome_configured?]
  have hrest : (v.forms.map o.categoryOf).filter (fun name => name ∉
      (addCategories CategoryOptions.name (o.configured? v) [] o.categories).map
        PaletteCategory.name) = (v.forms.map o.categoryOf).filter fun name =>
          name ∉ o.categories.map CategoryOptions.name := by
    refine List.filter_congr fun name hmem => ?_
    obtain ⟨f, hf, rfl⟩ := List.mem_map.1 hmem
    -- a descriptor that a form belongs to has something to show
    have hused {d : CategoryOptions} (hd : d.name = o.categoryOf f) : o.isUsed v d = true := by
      rw [isUsed, Bool.or_eq_true, List.any_eq_true]
      exact .inr ⟨f, hf, decide_eq_true hd.symm⟩
    rw [decide_eq_decide, mem_names_addCategories name_configured?, List.mem_map]
    refine not_congr <| exists_congr fun d => and_congr_right fun _ => ?_
    refine and_iff_left_of_imp fun hd => ?_
    rw [isSome_configured?]
    exact hused hd
  rw [palette_categories, names_addCategories name_unconfigured]
  simp only [Option.isSome_some, hall, List.map_id_fun', id]
  rw [hrest, hconfigured]

/-- A category that is shown is shown for a descriptor, with its marker or with its forms, or it is
shown for the forms that name it. -/
theorem mem_palette (h : c ∈ (v.palette o).categories) :
    (∃ d ∈ o.categories, o.configured? v d = some c) ∨
      ∃ f ∈ v.forms, c = o.unconfigured v (o.categoryOf f) := by
  have hfind : (v.palette o).category? c.name = some c :=
    find?_eq_of_nodup_keys (nodup_palette v o) h
  rw [category?_palette, Option.or_eq_some_iff] at hfind
  rcases hfind with hfind | ⟨-, hfind⟩
  · obtain ⟨d, hd, hc⟩ := List.exists_of_findSome?_eq_some hfind
    split at hc
    · exact .inl ⟨d, hd, hc⟩
    · exact nomatch hc
  · split at hfind
    · next hmem =>
      obtain ⟨f, hf, hname⟩ := List.mem_map.1 hmem
      exact .inr ⟨f, hf, by rw [hname]; exact (Option.some.inj hfind).symm⟩
    · exact nomatch hfind

/-- The entries of a category are those of the forms that belong to it, unless it is marked. -/
theorem entries_of_mem_palette (h : c ∈ (v.palette o).categories) :
    c.entries = o.entriesIn v c.name ∨ c.entries = [] := by
  rcases mem_palette h with ⟨d, -, hd⟩ | ⟨f, -, rfl⟩
  · obtain ⟨hname, -, hentries⟩ := configured?_eq_some hd
    rw [hname]
    rcases hentries with ⟨-, hnil⟩ | ⟨-, hentries, -⟩
    · exact .inr hnil
    · exact .inl hentries
  · exact .inl rfl

/-- What a form's category is: filled by the host, or with all the forms that belong to it. -/
theorem exists_category? (hf : f ∈ v.forms) :
    ∃ c, (v.palette o).category? (o.categoryOf f) = some c ∧
      c.entries = if o.isDynamic (o.categoryOf f) then [] else o.entriesIn v (o.categoryOf f) := by
  have hne : o.entriesIn v (o.categoryOf f) ≠ [] := fun h => entriesIn_eq_nil_iff.1 h f hf rfl
  rw [category?_palette, isDynamic]
  cases hfirst : o.categories.find? fun d => d.name = o.categoryOf f with
  | none =>
    have hnone : (o.categories.findSome? fun d =>
        if d.name = o.categoryOf f then o.configured? v d else none) = none := by
      rw [List.findSome?_eq_none_iff]
      intro d hd
      rw [if_neg (by simpa using List.find?_eq_none.1 hfirst d hd)]
    -- no descriptor has the name, so the category is there for the sake of the form
    rw [hnone, Option.none_or, if_pos (List.mem_map_of_mem hf)]
    exact ⟨_, rfl, rfl⟩
  | some d =>
    have hname : d.name = o.categoryOf f := by simpa using List.find?_some hfirst
    -- the first descriptor is not passed over: it has a marker, or else this form to show
    have hshown {c : PaletteCategory} (hc : o.configured? v d = some c) :
        (o.categories.findSome? fun d =>
          if d.name = o.categoryOf f then o.configured? v d else none) = some c := by
      simpa using findSome?_of_first hfirst hc
    cases hcustom : d.custom with
    | some marker =>
      have hmarked : d.custom.isSome = true := by rw [hcustom]; rfl
      rw [hshown (configured?_of_marked hmarked), Option.some_or]
      exact ⟨_, rfl, by simp [hcustom]⟩
    | none =>
      have hconfigured := configured?_of_unmarked (o := o) (v := v) hcustom
      rw [hname, if_neg hne] at hconfigured
      rw [hshown hconfigured, Option.some_or]
      exact ⟨_, rfl, by simp [hcustom]⟩

end Vocabulary

/-! ### The arrangement -/

/-- All entries of a palette, each with the name of its category. -/
def Palette.listing (p : Palette) : List (String × PaletteEntry) :=
  p.categories.flatMap fun c => c.entries.map (c.name, ·)

/-- The palette shows the forms of `v` as `o` configures it. -/
structure Palette.Arranges (p : Palette) (o : PaletteOptions) (v : Vocabulary) : Prop where
  nodup : (p.categories.map PaletteCategory.name).Nodup
  /-- The entry of a form is in the category of the form and nowhere else. If the host fills that
  category, it is not there either. -/
  listing {f : Form} : f ∈ v.forms → (p.listing.filter fun e => e.2.form = f.name) =
    if o.isDynamic (o.categoryOf f) then [] else [(o.categoryOf f, o.entry f)]
  sublist {c : PaletteCategory} : c ∈ p.categories → c.entries.Sublist (v.forms.map o.entry)
  /-- Descriptors come in their order, and then the names that only forms have, in theirs. -/
  names : p.categories.map PaletteCategory.name =
    ((o.categories.filter (o.isUsed v)).map CategoryOptions.name).eraseDups ++
      ((v.forms.map o.categoryOf).filter fun name =>
        name ∉ o.categories.map CategoryOptions.name).eraseDups
  /-- A category without entries has its marker from one of the descriptors of its name. -/
  marked {c : PaletteCategory} : c ∈ p.categories → c.entries = [] →
    c.custom.isSome = true ∧ ∃ d ∈ o.categories, d.name = c.name ∧ d.custom = c.custom

namespace Vocabulary

open PaletteOptions

/-- A form has one entry in its category, and none in the others. -/
theorem filter_entriesIn {v : Vocabulary} {o : PaletteOptions} {f : Form} (hf : f ∈ v.forms)
    (name : String) : (o.entriesIn v name).filter (fun e => e.form = f.name) =
      if o.categoryOf f = name then [o.entry f] else [] := by
  have hforms : v.forms.filter
      (fun g => decide (g.name = f.name) && decide (o.categoryOf g = name)) =
      if o.categoryOf f = name then [f] else [] := by
    rw [filter_eq_of_nodup_keys v.nodup hf fun g _ hne => by simp [hne]]
    by_cases h : o.categoryOf f = name
    · simp [h]
    · simp [h]
  have hentry : ((fun e : PaletteEntry => decide (e.form = f.name)) ∘ o.entry) =
      fun g => decide (g.name = f.name) := rfl
  rw [entriesIn, List.filter_map, List.filter_filter, hentry, hforms]
  split <;> rfl

theorem listing_palette {v : Vocabulary} {o : PaletteOptions} {f : Form} (hf : f ∈ v.forms) :
    ((v.palette o).listing.filter fun e => e.2.form = f.name) =
      if o.isDynamic (o.categoryOf f) then [] else [(o.categoryOf f, o.entry f)] := by
  obtain ⟨c, hc, hentries⟩ := exists_category? (o := o) hf
  have hmem : c ∈ (v.palette o).categories := List.mem_of_find?_eq_some hc
  have hname : c.name = o.categoryOf f := by simpa using List.find?_some hc
  have hfilter (c : PaletteCategory) :
      (c.entries.map (c.name, ·)).filter (fun e => e.2.form = f.name) =
        (c.entries.filter fun e => e.form = f.name).map (c.name, ·) := List.filter_map
  -- a category with another name has no entry of the form, as its entries belong to that name
  have hothers : ∀ c' ∈ (v.palette o).categories, c'.name ≠ c.name →
      (c'.entries.map (c'.name, ·)).filter (fun e => e.2.form = f.name) = [] := by
    intro c' hc' hne
    rw [hfilter]
    rcases entries_of_mem_palette hc' with h | h
    · rw [h, filter_entriesIn hf, if_neg fun heq => hne (hname ▸ heq.symm)]
      rfl
    · rw [h]
      rfl
  rw [Palette.listing, List.filter_flatMap,
    flatMap_eq_of_nodup_keys (nodup_palette v o) hmem hothers, hfilter, hentries, hname]
  split
  · rfl
  · rw [filter_entriesIn hf, if_pos rfl]
    rfl

/-- Every palette arranges the forms of its vocabulary. -/
theorem palette_arranges (v : Vocabulary) (o : PaletteOptions) : (v.palette o).Arranges o v where
  nodup := nodup_palette v o
  listing := listing_palette
  sublist {c} hc := by
    rcases entries_of_mem_palette hc with h | h
    · rw [h]
      exact List.filter_sublist.map o.entry
    · rw [h]
      exact List.nil_sublist _
  names := names_palette v o
  marked {c} hc hnil := by
    rcases mem_palette hc with ⟨d, hd, hc⟩ | ⟨f, hf, rfl⟩
    · obtain ⟨hname, hcustom, hentries⟩ := configured?_eq_some hc
      rcases hentries with ⟨hmarked, -⟩ | ⟨-, -, hne⟩
      · exact ⟨hcustom ▸ hmarked, d, hd, hname.symm, hcustom.symm⟩
      · exact absurd hnil hne
    · exact absurd rfl (entriesIn_eq_nil_iff.1 hnil f hf)

/-- The first descriptor of the category is not marked and has no forms, the second is marked. -/
theorem marked_descriptor_shown :
    let o : PaletteOptions :=
      { categories :=
          [{ name := "Extra", colour := .hex "#111111" },
            { name := "Extra", colour := .hex "#222222", custom := some "HOST" }] }
    ¬ ∀ c ∈ (Dialect.vocabulary.palette o).categories,
      c.entries = [] → o.isDynamic c.name = true := by
  decide +kernel

end Vocabulary

end ScriptBlocks
