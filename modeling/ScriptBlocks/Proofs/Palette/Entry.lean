import ScriptBlocks.Proofs.Palette
import ScriptBlocks.Proofs.Template
import ScriptBlocks.Proofs.Vocabulary
import ScriptBlocks.Proofs.Workspace.Connect
import ScriptBlocks.Proofs.Workspace.Create

/-!
# Palette entries can be built

An entry of the palette promises a block with certain fields, and literals for some of its slots.
The promise is made from the template of the form and so are the block and its slots, so it can be
kept: the block has the fields, and each slot takes its literal.

## Main definitions

* `Shadow.Fits` — a literal is of a form that a slot takes
* `Workspace.PlacesShadows` — literals are made and put into their slots, one after the other
* `Workspace.HoldsShadow` — a slot holds a literal

## Main statements

* `PaletteOptions.fits_of_shadow?` — the literals of the palette fit their slots
* `Workspace.exists_placesShadows` — literals that fit can be put into the slots of a new block
* `Vocabulary.palette_entry_built` — the entries of the palette can be built
-/

namespace ScriptBlocks

variable {v : Vocabulary} {f : Form} {check : Option Capability} {slot : String} {s : Shadow}

/-- The literal is of an expression form that a slot with the check takes. -/
def Shadow.Fits (s : Shadow) (v : Vocabulary) (check : Option Capability) : Prop :=
  ∃ g output, v.get s.form = .ok g ∧ g.template.shape = .expression output ∧
    Capability.compatible check output = true

/-- The block is made after the literal, and `p` owns it. -/
structure Block.IsLiteral (b : Block) (s : Shadow) (p : BlockId) : Prop where
  form_eq : b.form = s.form
  field_eq : b.fields.find? s.field = some s.value
  shadow_eq : b.shadow = true
  parent_eq : b.parent = some p

/-! ### Entries -/

theorem Dialect.nodup_argNames : ∀ f ∈ forms, f.template.argNames.Nodup := by
  decide

namespace PaletteOptions

theorem mem_of_fields_entry {o : PaletteOptions} {name : String} {value : Value}
    (h : (o.entry f).fields.find? name = some value) :
    ∃ a ∈ f.template.args, a.default? = some (name, value) := by
  obtain ⟨a, ha, hdefault⟩ := List.mem_filterMap.1 (OrderedMap.mem_of_find?_ofList h)
  exact ⟨a, (List.mem_filter.1 ha).1, hdefault⟩

theorem mem_of_shadows_entry {o : PaletteOptions} (h : (o.entry f).shadows.find? slot = some s) :
    ∃ check, .value slot check ∈ f.template.args ∧ o.shadow? f.name slot check = some s := by
  obtain ⟨⟨slot', check⟩, hslot, heq⟩ :=
    List.mem_filterMap.1 (OrderedMap.mem_of_find?_ofList h)
  obtain ⟨s', hs, heq⟩ := Option.map_eq_some_iff.1 heq
  cases heq
  exact ⟨check, Template.mem_valueSlots.1 hslot, hs⟩

theorem fits_zero (hforms : ∀ f ∈ Dialect.forms, f ∈ v.forms)
    (hcheck : Capability.compatible check (some .number) = true) : Shadow.zero.Fits v check :=
  ⟨Dialect.mathNumber, some .number, Vocabulary.get_eq_ok_iff.2
    (Vocabulary.find?_of_mem (hforms Dialect.mathNumber (List.mem_of_getElem? (i := 28) rfl))), rfl,
    hcheck⟩

/-- The usual literals fit: those for checked slots give what the slot asks for, and comparisons take
anything. -/
theorem fits_of_shadow? (hforms : ∀ f ∈ Dialect.forms, f ∈ v.forms) (hf : f ∈ v.forms)
    (hslot : .value slot check ∈ f.template.args)
    (hs : ({} : PaletteOptions).shadow? f.name slot check = some s) : s.Fits v check := by
  unfold shadow? at hs
  split at hs
  · next shadow hlisted =>
    obtain rfl := Option.some.inj hs
    obtain ⟨shadows, hshadows, hshadow⟩ := Option.bind_eq_some_iff.1 hlisted
    -- literals are listed for comparisons alone
    have hmem := OrderedMap.mem_of_find?_ofList hshadows
    rw [List.mem_singleton, Prod.mk.injEq] at hmem
    obtain ⟨hname, rfl⟩ := hmem
    have hcompare : Dialect.logicCompare ∈ v.forms :=
      hforms _ (List.mem_of_getElem? (i := 25) rfl)
    obtain rfl := Vocabulary.eq_of_name_eq hf hcompare hname
    have hzero : shadow = .zero := by
      have hmem := OrderedMap.mem_of_find?_ofList hshadow
      simp only [List.mem_cons, Prod.mk.injEq, List.not_mem_nil, or_false] at hmem
      rcases hmem with ⟨-, rfl⟩ | ⟨-, rfl⟩ <;> rfl
    have hcheck : check = none := by
      simp only [Dialect.logicCompare, Template.expression, List.mem_cons, Arg.value.injEq,
        reduceCtorEq, List.not_mem_nil, or_false, false_or] at hslot
      rcases hslot with ⟨-, rfl⟩ | ⟨-, rfl⟩ <;> rfl
    rw [hzero, hcheck]
    exact fits_zero hforms rfl
  · cases check with
    | none => exact nomatch hs
    | some capability =>
      cases capability with
      | number =>
        obtain rfl := Option.some.inj hs
        exact fits_zero hforms rfl
      | string =>
        obtain rfl := Option.some.inj hs
        refine ⟨Dialect.text, some .string, Vocabulary.get_eq_ok_iff.2 ?_, rfl, rfl⟩
        exact Vocabulary.find?_of_mem (hforms Dialect.text (List.mem_of_getElem? (i := 24) rfl))
      | boolean => exact nomatch hs

end PaletteOptions

/-! ### Placing literals -/

namespace Workspace

/-- From `w` to `w'` literals are made and put into slots of the block `p`, one after the other. -/
inductive PlacesShadows (v : Vocabulary) (p : BlockId) :
    Workspace → List (String × Shadow) → Workspace → Prop where
  | nil (w : Workspace) : PlacesShadows v p w [] w
  | cons {w w₁ w₂ w₃ : Workspace} {slot : String} {s : Shadow} {c : BlockId}
      {shadows : List (String × Shadow)} :
      w.createShadow v s.form (.ofList [(s.field, s.value)]) = .ok (c, w₁) →
      w₁.connectValue p slot c = (.ok (), w₂) → PlacesShadows v p w₂ shadows w₃ →
      PlacesShadows v p w ((slot, s) :: shadows) w₃

/-- The slot of the block `p` holds the literal. -/
def HoldsShadow (w : Workspace) (p : BlockId) (slot : String) (s : Shadow) : Prop :=
  ∃ b c child, w.find? p = some b ∧ b.valueChild slot = some c ∧ w.find? c = some child ∧
    child.IsLiteral s p

variable {w : Workspace} {p : BlockId} {b : Block}

/-- The ids of a run of new blocks are distinct, unless there are so many that they start anew. -/
theorem id_add_ne {p i j : Nat} (hij : i < j) (hj : j < wordLimit) :
    (p + i) % wordLimit ≠ (p + j) % wordLimit := by
  rw [wordLimit] at hj ⊢
  omega

theorem succId_add (p j : Nat) : succId ((p + j) % wordLimit) = (p + (j + 1)) % wordLimit := by
  rw [succId, Nat.mod_add_mod, Nat.add_assoc]

/-- A literal is made as a new block, and nothing else changes. -/
theorem exists_createShadow {c : BlockId} {form : String} {g : Form} (hg : v.get form = .ok g)
    (hid : c = succId w.lastId) (fields : Fields) :
    ∃ w₁, w.createShadow v form fields = .ok (c, w₁) ∧ w₁.lastId = c ∧
      ∀ x, w₁.find? x = if x = c then
        some { Block.ofTemplate c form g.template fields with shadow := true } else w.find? x := by
  refine ⟨_, createShadow_eq_ok.2 ⟨_, create_eq_ok.2 ⟨g, hg, hid, rfl⟩, rfl⟩, rfl, fun x => ?_⟩
  have hown : (Block.ofTemplate c form g.template fields).id = c := rfl
  rw [find?_modify, find?_addBlock, hown]
  by_cases hx : x = c
  · rw [if_pos hx, if_pos hx, if_pos hx]
    rfl
  · rw [if_neg hx, if_neg hx, if_neg hx]

/-- A block that is put into a slot is seen in the slot and in the block itself. -/
theorem find?_own_fill {c : BlockId} {child : Block} (hb : w.find? p = some b)
    (hchild : w.find? c = some child) (hne : c ≠ p) (slot : String) (x : BlockId) :
    ((w.fill p slot c).own p c).find? x =
      if x = p then some { b with slots := b.slots.modify slot (Slot.hold (some c)) }
      else if x = c then some { child with parent := some p } else w.find? x := by
  rw [own, find?_modify, fill, find?_modify]
  by_cases hp : x = p
  · subst hp
    rw [if_neg hne.symm, if_pos rfl, if_pos rfl, hb]
    rfl
  · by_cases hc : x = c
    · subst hc
      rw [if_pos rfl, if_neg hp, if_neg hp, if_pos rfl, hchild]
      rfl
    · rw [if_neg hc, if_neg hp, if_neg hp, if_neg hc]

/-- One literal is made and put into a free slot that it fits. Nothing changes but that slot. -/
theorem exists_placeShadow {c : BlockId} (hb : w.find? p = some b) (hroot : b.parent = none)
    (hid : c = succId w.lastId) (hne : c ≠ p)
    (hslot : b.slots.find? slot = some (.value check none)) (hfits : s.Fits v check) :
    ∃ w₁ w₂ child, w.createShadow v s.form (.ofList [(s.field, s.value)]) = .ok (c, w₁) ∧
      w₁.connectValue p slot c = (.ok (), w₂) ∧ w₂.lastId = c ∧
      w₂.find? p = some { b with slots := b.slots.modify slot (Slot.hold (some c)) } ∧
      (w₂.find? c = some child ∧ child.IsLiteral s p) ∧
      ∀ x, x ≠ p → x ≠ c → w₂.find? x = w.find? x := by
  obtain ⟨g, output, hg, hshape, hcompatible⟩ := hfits
  obtain ⟨w₁, hcreate, hlast, hfind⟩ :=
    exists_createShadow hg hid (.ofList [(s.field, s.value)])
  have hchild := (hfind c).trans (if_pos rfl)
  have hp : w₁.find? p = some b := ((hfind p).trans (if_neg hne.symm)).trans hb
  have hadmit : w₁.admitChild p c = .ok () := by
    refine admitChild_eq_ok.2 ⟨_, hchild, rfl, hne, ?_⟩
    rw [ancestors_of_root ((parent?_of_find? hp).trans hroot)]
    exact List.not_mem_nil
  have hconnect := connectValue_of_vacant
    (admitValue_of_admitChild hp hslot hchild hshape hcompatible hadmit)
  have hplaced := find?_own_fill hp hchild hne slot
  refine ⟨w₁, _, _, hcreate, hconnect, hlast, (hplaced p).trans (if_pos rfl),
    ⟨((hplaced c).trans (if_neg hne)).trans (if_pos rfl), ⟨rfl, ?_, rfl, rfl⟩⟩, ?_⟩
  · exact OrderedMap.find?_insertMany_of_mem (OrderedMap.nodup _) List.mem_cons_self
  · intro x hxp hxc
    rw [hplaced, if_neg hxp, if_neg hxc, hfind, if_neg hxc]

/-- Literals that fit can be put into the free slots of a block without an owner. The block `p` is
followed by `j` others, and they stay as they are. -/
theorem exists_placesShadows {shadows : List (String × Shadow)} {j : Nat} (hp : p < wordLimit)
    (hb : w.find? p = some b) (hroot : b.parent = none)
    (hfits : ∀ e ∈ shadows, ∃ check, b.slots.find? e.1 = some (.value check none) ∧ e.2.Fits v check)
    (hnodup : (shadows.map Prod.fst).Nodup) (hlast : w.lastId = (p + j) % wordLimit)
    (hroom : j + shadows.length < wordLimit) :
    ∃ w', PlacesShadows v p w shadows w' ∧ (∀ e ∈ shadows, w'.HoldsShadow p e.1 e.2) ∧
      (∃ b', w'.find? p = some b' ∧ b'.fields = b.fields ∧
        ∀ slot ∉ shadows.map Prod.fst, b'.slots.find? slot = b.slots.find? slot) ∧
      ∀ i, 0 < i → i ≤ j →
        w'.find? ((p + i) % wordLimit) = w.find? ((p + i) % wordLimit) := by
  induction shadows generalizing w b j with
  | nil => exact ⟨w, .nil w, nofun, ⟨b, hb, rfl, fun _ _ => rfl⟩, fun _ _ _ => rfl⟩
  | cons e shadows ih =>
    obtain ⟨slot, s⟩ := e
    obtain ⟨⟨check, hslot, hfit⟩, hfits⟩ := List.forall_mem_cons.1 hfits
    obtain ⟨hfresh, hnodup⟩ := List.nodup_cons.1 hnodup
    rw [List.length_cons] at hroom
    have hother {i : Nat} (hi : 0 < i) (hlimit : i < wordLimit) : (p + i) % wordLimit ≠ p := by
      have hne := id_add_ne (p := p) hi hlimit
      rw [Nat.add_zero, Nat.mod_eq_of_lt hp] at hne
      exact hne.symm
    obtain ⟨w₁, w₂, child, hcreate, hconnect, hlast₂, hp₂, hchild, hframe⟩ :=
      exists_placeShadow (c := (p + (j + 1)) % wordLimit) hb hroot (by rw [hlast, succId_add])
        (hother (Nat.succ_pos j) (by omega)) hslot hfit
    have hslots {slot' : String} (hne : slot' ≠ slot) :
        (b.slots.modify slot (Slot.hold (some ((p + (j + 1)) % wordLimit)))).find? slot' =
          b.slots.find? slot' := by
      rw [OrderedMap.find?_modify, if_neg hne]
    have hfits₂ : ∀ e ∈ shadows, ∃ check, (b.slots.modify slot
        (Slot.hold (some ((p + (j + 1)) % wordLimit)))).find? e.1 = some (.value check none) ∧
          e.2.Fits v check := by
      intro e he
      obtain ⟨check', hcheck', hfit'⟩ := hfits e he
      have hne : e.1 ≠ slot := fun heq => hfresh (List.mem_map.2 ⟨e, he, heq⟩)
      exact ⟨check', (hslots hne).trans hcheck', hfit'⟩
    obtain ⟨w₃, hplaces, hholds, ⟨b₃, hb₃, hfields, hslots₃⟩, hframe₃⟩ :=
      ih hp₂ hroot hfits₂ hnodup hlast₂ (by omega)
    refine ⟨w₃, .cons hcreate hconnect hplaces, ?_, ⟨b₃, hb₃, hfields, ?_⟩, ?_⟩
    · refine List.forall_mem_cons.2 ⟨?_, hholds⟩
      have hkept := (hframe₃ _ (Nat.succ_pos j) (Nat.le_refl _)).trans hchild.1
      refine ⟨b₃, _, child, hb₃, ?_, hkept, hchild.2⟩
      rw [Block.valueChild, hslots₃ slot hfresh, OrderedMap.find?_modify, if_pos rfl, hslot]
      rfl
    · intro slot' hslot'
      rw [List.map_cons, List.mem_cons, not_or] at hslot'
      exact (hslots₃ slot' hslot'.2).trans (hslots hslot'.1)
    · intro i hi hij
      rw [hframe₃ i hi (by omega)]
      exact hframe _ (hother hi (by omega)) (id_add_ne (by omega) (by omega))

end Workspace

namespace Vocabulary

open Workspace

/-- In any workspace, a block of a palette entry can be created and has the fields of the entry. Any of
the literals of the entry can then be made and put into their slots, in any order. -/
theorem palette_entry_built (hforms : ∀ f ∈ Dialect.forms, f ∈ v.forms)
    (hnames : ∀ f ∈ v.forms, f ∉ Dialect.forms → f.template.argNames.Nodup)
    {c : PaletteCategory} (hc : c ∈ (v.palette {}).categories)
    {e : PaletteEntry} (he : e ∈ c.entries) (w : Workspace) :
    ∃ id w₁ b, w.create v e.form ∅ = .ok (id, w₁) ∧ w₁.find? id = some b ∧ b.form = e.form ∧
      (∀ name value, e.fields.find? name = some value → b.fields.find? name = some value) ∧
      ∀ shadows : List (String × Shadow), (∀ x ∈ shadows, e.shadows.find? x.1 = some x.2) →
        (shadows.map Prod.fst).Nodup → shadows.length < wordLimit →
        ∃ w₂, PlacesShadows v id w₁ shadows w₂ ∧ (∀ x ∈ shadows, w₂.HoldsShadow id x.1 x.2) ∧
          ∃ b₂, w₂.find? id = some b₂ ∧ b₂.fields = b.fields := by
  have hentries : c.entries = ({} : PaletteOptions).entriesIn v c.name := by
    refine (entries_of_mem_palette hc).resolve_right fun hnil => ?_
    rw [hnil] at he
    exact nomatch he
  rw [hentries, PaletteOptions.entriesIn, List.mem_map] at he
  obtain ⟨f, hf, rfl⟩ := he
  have hf : f ∈ v.forms := (List.mem_filter.1 hf).1
  have hnodup : f.template.argNames.Nodup := by
    by_cases hbuiltin : f ∈ Dialect.forms
    · exact Dialect.nodup_argNames f hbuiltin
    · exact hnames f hf hbuiltin
  have hget : v.get f.name = .ok f := get_eq_ok_iff.2 (find?_of_mem hf)
  have hcreate : w.create v f.name ∅ = .ok (succId w.lastId,
      w.addBlock (.ofTemplate (succId w.lastId) f.name f.template ∅)) :=
    create_eq_ok.2 ⟨f, hget, rfl, rfl⟩
  have hb : (w.addBlock (.ofTemplate (succId w.lastId) f.name f.template ∅)).find?
      (succId w.lastId) = some (.ofTemplate (succId w.lastId) f.name f.template ∅) :=
    (find?_addBlock w _ _).trans (if_pos rfl)
  refine ⟨_, _, _, hcreate, hb, rfl, ?_, ?_⟩
  · intro name value h
    obtain ⟨a, ha, hdefault⟩ := PaletteOptions.mem_of_fields_entry h
    exact Block.find?_fields_ofTemplate hnodup ha hdefault
  · intro shadows hshadows hslots hlength
    have hlt : succId w.lastId < wordLimit := Nat.mod_lt _ (by decide)
    have hfits : ∀ x ∈ shadows, ∃ check, (Block.ofTemplate (succId w.lastId) f.name f.template
        ∅).slots.find? x.1 = some (.value check none) ∧ x.2.Fits v check := by
      intro x hx
      obtain ⟨check, hslot, hshadow⟩ := PaletteOptions.mem_of_shadows_entry (hshadows x hx)
      exact ⟨check, Block.find?_slots_ofTemplate hnodup hslot rfl,
        PaletteOptions.fits_of_shadow? hforms hf hslot hshadow⟩
    obtain ⟨w₂, hplaces, hholds, ⟨b₂, hb₂, hfields, -⟩, -⟩ := exists_placesShadows (j := 0) hlt hb rfl
      hfits hslots (Nat.mod_eq_of_lt hlt).symm (by omega)
    exact ⟨w₂, hplaces, hholds, b₂, hb₂, hfields⟩

/-- A form of the host with a number field and a slot for a text: its entry is built with the number
and the usual text. -/
theorem palette_entry_built_of_announcement :
    let f : Form := { Dialect.showString with
      name := "announce"
      template := .chained "announce %1 %2 times"
        [.value "WHAT" (some .string), .plainNumber "TIMES" 3] "" }
    let o : PaletteOptions := {}
    ∃ v, Dialect.vocabulary.register f = .ok v ∧ (∃ c ∈ (v.palette o).categories, o.entry f ∈ c.entries) ∧
      ∃ id w₁ b w₂ b₂, (∅ : Workspace).create v "announce" ∅ = .ok (id, w₁) ∧
        w₁.find? id = some b ∧ b.fields.find? "TIMES" = some (.int 3) ∧
        PlacesShadows v id w₁ [("WHAT", o.textShadow)] w₂ ∧ w₂.HoldsShadow id "WHAT" o.textShadow ∧
        w₂.find? id = some b₂ ∧ b₂.fields.find? "TIMES" = some (.int 3) := by
  intro f o
  obtain ⟨v, hv⟩ : ∃ v, Dialect.vocabulary.register f = .ok v := ⟨_, rfl⟩
  have hforms : v.forms = Dialect.forms ++ [f] := by
    rw [← Except.ok.inj hv]
    rfl
  have hf : f ∈ v.forms := by
    rw [hforms]
    exact List.mem_append_right _ List.mem_cons_self
  obtain ⟨c, hc, hentries⟩ := exists_category? (o := o) hf
  have hmem : c ∈ (v.palette o).categories := List.mem_of_find?_eq_some hc
  have he : o.entry f ∈ c.entries := by
    rw [hentries, if_neg (by decide)]
    exact List.mem_map_of_mem (List.mem_filter.2 ⟨hf, decide_eq_true rfl⟩)
  obtain ⟨id, w₁, b, hcreate, hb, -, hfields, hplaces⟩ := palette_entry_built
    (fun g hg => by rw [hforms]; exact List.mem_append_left _ hg)
    (fun g hg hother => by
      rw [hforms, List.mem_append] at hg
      rw [List.mem_singleton.1 (hg.resolve_left hother)]
      decide)
    hmem he ∅
  have htimes : b.fields.find? "TIMES" = some (.int 3) := hfields _ _ (by decide)
  obtain ⟨w₂, hplaced, hholds, b₂, hb₂, hsame⟩ := hplaces [("WHAT", o.textShadow)] (by decide)
    (by decide) (by decide)
  exact ⟨v, hv, ⟨c, hmem, he⟩, id, w₁, b, w₂, b₂, hcreate, hb, htimes, hplaced,
    hholds _ List.mem_cons_self, hb₂, hsame ▸ htimes⟩

end Vocabulary

end ScriptBlocks
