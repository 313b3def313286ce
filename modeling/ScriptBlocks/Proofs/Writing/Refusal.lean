import ScriptBlocks.Proofs.Workspace.Formed
import ScriptBlocks.Proofs.Writing.Footprint

/-!
# When writing fails

A silent block leaves no statement. Where an expression is wanted, that is refused: the text of a
block cannot be put together if a value slot in it holds a silent expression, unless the block with
the slot is silent itself. With forms that write whatever they are given, and give an expression just
if their template is one, this is the only reason for which writing fails.

## Main definitions

* `Vocabulary.WritesByShape` — each form writes whatever it is given, and by the shape of its template
* `Workspace.IsSilent` — a block of a gated form that is suppressed
* `Workspace.Stuck` — the text of a block comes across a silent expression

## Main statements

* `Workspace.FormedBy.exists_render_iff` — a block is written just if it is not stuck
* `Workspace.FormedBy.isExpression_of_render` — the text of a block goes by its shape
* `Workspace.write_ok_iff_not_stuck` — when blocks, chains and workspaces are written
-/

namespace ScriptBlocks

def Fragment.isExpression : Fragment → Bool
  | .expression .. => true
  | .statement _ => false

/-- Each form gives a text whatever its parts are, and an expression just if its template is one. -/
def Vocabulary.WritesByShape (v : Vocabulary) : Prop :=
  ∀ form ∈ v.forms, ∀ p : Parts, ∃ fragment, form.write p = .ok fragment ∧
    fragment.isExpression = form.template.shape.isExpression

namespace Workspace

/-- The block is of a gated form and suppressed. -/
def IsSilent (v : Vocabulary) (w : Workspace) (id : BlockId) : Prop :=
  ∃ b form, w.find? id = some b ∧ v.find? b.form = some form ∧ form.gated = true ∧
    isSuppressed v w id = true

/-- The text of the block comes across a silent expression. -/
inductive Stuck (v : Vocabulary) (w : Workspace) : BlockId → Prop where
  | operand {p c : BlockId} {b : Block} {check : Option Capability} (hp : ¬ w.IsSilent v p)
    (hb : w.find? p = some b) (hslot : .value check (some c) ∈ b.slots.values)
    (hc : w.IsSilent v c) : Stuck v w p
  | within {p c : BlockId} (hp : ¬ w.IsSilent v p) (hencloses : w.Encloses p c)
    (hc : Stuck v w c) : Stuck v w p

variable {w : Workspace} {v : Vocabulary} {o : WritingOptions} {id c : BlockId} {b : Block}
  {form : Form}

theorem IsSilent.gated (h : w.IsSilent v id) (hb : w.find? id = some b)
    (hform : v.find? b.form = some form) : form.gated = true := by
  obtain ⟨b', form', hb', hform', hgated, -⟩ := h
  obtain rfl := Option.some.inj (hb.symm.trans hb')
  obtain rfl := Option.some.inj (hform.symm.trans hform')
  exact hgated

theorem Stuck.not_isSilent (h : w.Stuck v id) : ¬ w.IsSilent v id := by
  cases h with
  | operand hp | within hp => exact hp

/-- A value slot holds an expression. -/
theorem Consistent.isExpression_of_mem_slots (hw : w.Consistent) {check : Option Capability}
    (hb : w.find? id = some b) (hslot : .value check (some c) ∈ b.slots.values) :
    ∃ child, w.find? c = some child ∧ child.shape.isExpression = true := by
  obtain ⟨child, hchild, -⟩ := hw.find?_of_mem_children hb
    (List.mem_append_left _ (List.mem_filterMap.2 ⟨_, hslot, rfl⟩))
  refine ⟨child, hchild, ?_⟩
  have hadmits := (hw.admits hb hchild).1 _ hslot rfl
  cases hshape : child.shape with
  | statement => exact nomatch (hshape ▸ hadmits :)
  | expression => rfl

theorem Consistent.exists_find?_of_mem_roots (hw : w.Consistent) (h : id ∈ w.roots) :
    ∃ b, w.find? id = some b ∧ b.parent = none := by
  obtain ⟨b, hmem, hid⟩ := List.mem_map.1 h
  obtain ⟨hmem, hroot⟩ := List.mem_filter.1 hmem
  obtain ⟨x, -, hx⟩ := List.mem_filterMap.1 hmem
  obtain rfl : x = id := (hw.id_eq hx).symm.trans hid
  exact ⟨b, hx, Option.isNone_iff_eq_none.1 hroot⟩

/-- Without gated expressions nothing is refused. -/
theorem not_stuck (hw : w.Consistent) (hf : w.FormedBy v)
    (hv : ∀ form ∈ v.forms, form.gated = true → form.template.shape.isExpression = false)
    (id : BlockId) : ¬ w.Stuck v id := by
  intro h
  induction h with
  | @operand p c b check _ hb hslot hc =>
    obtain ⟨child, hchild, hexpression⟩ := hw.isExpression_of_mem_slots hb hslot
    obtain ⟨child', form, hchild', hform, hgated, -⟩ := hc
    obtain rfl := Option.some.inj (hchild.symm.trans hchild')
    obtain ⟨form', hform', hshape⟩ := hf hchild
    obtain rfl := Option.some.inj (hform.symm.trans hform')
    have hstatement := hv form (List.mem_of_find?_eq_some hform) hgated
    rw [← hshape, hexpression] at hstatement
    exact nomatch hstatement
  | within _ _ _ ih => exact ih

section

variable (hw : w.Consistent)
include hw

theorem render_of_isSilent (h : w.IsSilent v id) : render v o w id = .ok (.statement "") := by
  obtain ⟨b, form, hb, hform, hgated, hsuppressed⟩ := h
  rw [hw.render_eq hb hform, hgated, hsuppressed]
  rfl

theorem render_of_not_isSilent (hb : w.find? id = some b) (hform : v.find? b.form = some form)
    (h : ¬ w.IsSilent v id) :
    render v o w id = w.parts v o (render v o w) form b id >>= form.write := by
  rw [hw.render_eq hb hform, if_neg]
  rw [Bool.and_eq_true]
  exact fun hsilent => h ⟨b, form, hb, hform, hsilent.1, hsilent.2⟩

/-- A block cannot be written for the sake of a block in a slot of it, because a value slot gives a
statement, or because its own form refuses. -/
theorem Consistent.render_eq_error {e : Error} (hb : w.find? id = some b)
    (hform : v.find? b.form = some form) (he : render v o w id = .error e) :
    (∃ x, w.Encloses id x ∧ render v o w x = .error e) ∨
      (∃ slot form, e = .statementText slot form) ∨
        ∃ p, w.parts v o (render v o w) form b id = .ok p ∧ form.write p = .error e := by
  have hsilent : ¬ w.IsSilent v id := fun hsilent =>
    nomatch (render_of_isSilent hw hsilent).symm.trans he
  rw [render_of_not_isSilent hw hb hform hsilent] at he
  rcases bind_eq_error.1 he with hparts | hwrite
  · rcases bind_eq_error.1 hparts with hfold | ⟨_, _, hpure⟩
    · obtain ⟨e', he', p, hadd⟩ := exists_of_foldlM_eq_error hfold
      have hmem : e'.2 ∈ b.slots.values := List.mem_map_of_mem he'
      match e' with
      | (_, .value _ none) | (_, .statement none) => exact nomatch hadd
      | (slot, .value check (some c)) =>
        obtain ⟨child, hchild, -⟩ := hw.isExpression_of_mem_slots hb hmem
        rcases bind_eq_error.1 hadd with hoperand | ⟨_, -, hpure⟩
        · rcases bind_eq_error.1 hoperand with hrender | ⟨fragment, -, hfragment⟩
          · exact .inl ⟨c, encloses_of_mem_slots hb he' rfl, hrender⟩
          · cases fragment with
            | expression => exact nomatch hfragment
            | statement =>
              simp only [get_of_find? hchild, bind, Except.bind] at hfragment
              exact .inr (.inl ⟨slot, child.form, (Except.error.inj hfragment).symm⟩)
        · exact nomatch hpure
      | (slot, .statement (some head)) =>
        rcases bind_eq_error.1 hadd with htext | ⟨_, -, hpure⟩
        · rcases bind_eq_error.1 htext with hmap | ⟨_, -, hpure⟩
          · obtain ⟨x, hx, hrender⟩ := exists_of_mapM_eq_error hmap
            exact .inl ⟨x, encloses_of_mem_chainWithin (encloses_of_mem_slots hb he' rfl) hx, hrender⟩
          · exact nomatch hpure
        · exact nomatch hpure
    · exact nomatch hpure
  · exact .inr (.inr hwrite)

/-- The text of a root takes the texts of the blocks in the chain that starts there, which is the
root alone if that is an expression. -/
theorem Consistent.exists_writeRoot_iff (hb : w.find? id = some b) :
    (∃ code, writeRoot v o w id = .ok code) ↔
      ∀ x ∈ w.chain id, ∃ fragment, render v o w x = .ok fragment := by
  rw [writeRoot, get_of_find? hb]
  simp only [bind, Except.bind]
  cases hshape : b.shape with
  | statement => exact exists_bind_pure_eq_ok_iff.trans exists_mapM_eq_ok_iff
  | expression =>
    simp only [hw.chain_of_isExpression hb (by rw [hshape]; rfl), List.mem_singleton, forall_eq]
    exact exists_bind_pure_eq_ok_iff.trans exists_map_eq_ok_iff

/-- The text of a root is refused for the sake of a block in the chain that starts there. -/
theorem Consistent.exists_of_writeRoot_eq_error {e : Error} (hb : w.find? id = some b)
    (h : writeRoot v o w id = .error e) : ∃ x ∈ w.chain id, render v o w x = .error e := by
  rw [writeRoot, get_of_find? hb] at h
  simp only [bind, Except.bind] at h
  cases hshape : b.shape with
  | statement =>
    rw [hshape] at h
    rcases bind_eq_error.1 h with hmap | ⟨_, -, hpure⟩
    · exact exists_of_mapM_eq_error hmap
    · exact nomatch hpure
  | expression =>
    rw [hshape] at h
    rw [hw.chain_of_isExpression hb (by rw [hshape]; rfl)]
    rcases bind_eq_error.1 h with hwrite | ⟨_, -, hpure⟩
    · exact ⟨id, List.mem_singleton_self id, map_eq_error.1 hwrite⟩
    · exact nomatch hpure

end

namespace FormedBy

variable (hf : w.FormedBy v) (hw : w.Consistent) (hv : v.WritesByShape)
include hf hw hv

/-- The text of a block is an expression just if the block is one and not silent. -/
theorem isExpression_of_render {fragment : Fragment} (hb : w.find? id = some b)
    (h : render v o w id = .ok fragment) :
    fragment.isExpression = true ↔ b.shape.isExpression = true ∧ ¬ w.IsSilent v id := by
  obtain ⟨form, hform, hshape⟩ := hf hb
  by_cases hsilent : w.IsSilent v id
  · rw [render_of_isSilent hw hsilent] at h
    rw [← Except.ok.inj h]
    exact iff_of_false nofun fun h => h.2 hsilent
  · rw [render_of_not_isSilent hw hb hform hsilent, bind_eq_ok] at h
    obtain ⟨p, -, hwrite⟩ := h
    obtain ⟨fragment', hwrite', hby⟩ := hv form (List.mem_of_find?_eq_some hform) p
    obtain rfl := Except.ok.inj (hwrite.symm.trans hwrite')
    rw [hby, hshape, and_iff_left hsilent]

theorem exists_operand_iff (slot : String) (hc : w.find? c = some b)
    (hshape : b.shape.isExpression = true) :
    (∃ text, w.operand (render v o w) slot c = .ok text) ↔
      (∃ fragment, render v o w c = .ok fragment) ∧ ¬ w.IsSilent v c := by
  have hby {fragment : Fragment} (h : render v o w c = .ok fragment) :=
    hf.isExpression_of_render hw hv hc h
  rw [operand]
  cases hrender : render v o w c with
  | error e => exact iff_of_false not_exists_error_eq_ok fun h => not_exists_error_eq_ok h.1
  | ok fragment =>
    specialize hby hrender
    cases fragment with
    | expression code precedence =>
      exact iff_of_true ⟨_, rfl⟩ ⟨⟨_, rfl⟩, (hby.1 rfl).2⟩
    | statement code =>
      refine iff_of_false ?_ fun h => Bool.false_ne_true (hby.2 ⟨hshape, h.2⟩)
      simp only [bind, Except.bind, get_of_find? hc]
      exact not_exists_error_eq_ok

/-- What a slot holds has a text if each block in it has one, and it is no silent expression. -/
theorem exists_addSlotText_iff {e : String × Slot} (hb : w.find? id = some b)
    (he : e ∈ b.slots.entries) (p : Parts) :
    (∃ p', w.addSlotText (render v o w) p e = .ok p') ↔
      (∀ head, e.2.occupant = some head → ∀ x ∈ w.chain head,
        ∃ fragment, render v o w x = .ok fragment) ∧
      ∀ check c, e.2 = .value check (some c) → ¬ w.IsSilent v c := by
  have hmem : e.2 ∈ b.slots.values := List.mem_map_of_mem he
  match e with
  | (_, .value _ none) | (_, .statement none) => exact iff_of_true ⟨_, rfl⟩ ⟨nofun, nofun⟩
  | (slot, .value check (some c)) =>
    obtain ⟨child, hchild, hshape⟩ := hw.isExpression_of_mem_slots hb hmem
    have hoperand := hf.exists_operand_iff hw hv (o := o) slot hchild hshape
    simp only [addSlotText, bind_eq_ok, pure_eq_ok]
    constructor
    · rintro ⟨_, text, htext, -⟩
      obtain ⟨hrender, hsilent⟩ := hoperand.1 ⟨text, htext⟩
      refine ⟨?_, ?_⟩
      · rintro _ ⟨⟩ x hx
        rw [hw.chain_of_isExpression hchild hshape, List.mem_singleton] at hx
        exact hx ▸ hrender
      · rintro _ _ ⟨⟩
        exact hsilent
    · rintro ⟨hrender, hsilent⟩
      obtain ⟨text, htext⟩ := hoperand.2
        ⟨hrender c rfl c (by rw [hw.chain_of_isExpression hchild hshape]; exact List.mem_singleton_self c),
          hsilent check c rfl⟩
      exact ⟨_, text, htext, rfl⟩
  | (slot, .statement (some head)) =>
    simp only [addSlotText, chainText, bind_eq_ok, pure_eq_ok]
    constructor
    · rintro ⟨_, code, ⟨fragments, hfragments, -⟩, -⟩
      refine ⟨?_, ?_⟩
      · rintro _ ⟨⟩
        exact exists_mapM_eq_ok_iff.1 ⟨fragments, hfragments⟩
      · rintro _ _ ⟨⟩
    · rintro ⟨hrender, -⟩
      obtain ⟨fragments, hfragments⟩ := exists_mapM_eq_ok_iff.2 (hrender head rfl)
      exact ⟨_, _, ⟨fragments, hfragments, rfl⟩, rfl⟩

theorem exists_parts_iff (hb : w.find? id = some b) :
    (∃ p, w.parts v o (render v o w) form b id = .ok p) ↔
      (∀ x, w.Encloses id x → ∃ fragment, render v o w x = .ok fragment) ∧
      ∀ check c, .value check (some c) ∈ b.slots.values → ¬ w.IsSilent v c := by
  have hfold := exists_foldlM_eq_ok_iff ({ fields := b.fields, options := o } : Parts)
    fun p e he => hf.exists_addSlotText_iff hw hv (o := o) hb he p
  have hparts : (∃ p, w.parts v o (render v o w) form b id = .ok p) ↔
      ∃ p, b.slots.entries.foldlM (w.addSlotText (render v o w))
        ({ fields := b.fields, options := o } : Parts) = .ok p :=
    exists_bind_pure_eq_ok_iff
  rw [hparts, hfold]
  constructor
  · intro h
    refine ⟨fun x hx => ?_, fun check c hslot => ?_⟩
    · obtain ⟨head, ⟨b', hb', s, hs, hoccupant⟩, hmem⟩ := hw.exists_mem_chain_of_encloses hx
      obtain rfl := Option.some.inj (hb.symm.trans hb')
      obtain ⟨e, he, rfl⟩ := List.mem_map.1 hs
      exact (h e he).1 head hoccupant x hmem
    · obtain ⟨e, he, heq⟩ := List.mem_map.1 hslot
      exact (h e he).2 check c heq
  · intro h e he
    refine ⟨fun head hoccupant x hx => ?_, fun check c heq => ?_⟩
    · exact h.1 x (encloses_of_mem_chainWithin (encloses_of_mem_slots hb he hoccupant) hx)
    · exact h.2 check c (heq ▸ List.mem_map_of_mem he)

/-- A block is written just if its text does not come across a silent expression. -/
theorem exists_render_iff (h : w.contains id = true) :
    (∃ fragment, render v o w id = .ok fragment) ↔ ¬ w.Stuck v id := by
  refine hw.below_induction (P := fun id => w.contains id = true →
    ((∃ fragment, render v o w id = .ok fragment) ↔ ¬ w.Stuck v id)) ?_ id h
  intro id ih h
  obtain ⟨b, hb⟩ := contains_iff_find?.1 h
  by_cases hsilent : w.IsSilent v id
  · exact iff_of_true ⟨_, render_of_isSilent hw hsilent⟩ fun hstuck => hstuck.not_isSilent hsilent
  · obtain ⟨form, hform, -⟩ := hf hb
    have hwrite : (∃ fragment, render v o w id = .ok fragment) ↔
        ∃ p, w.parts v o (render v o w) form b id = .ok p := by
      simp only [render_of_not_isSilent hw hb hform hsilent, bind_eq_ok]
      refine ⟨fun ⟨_, p, hp, _⟩ => ⟨p, hp⟩, fun ⟨p, hp⟩ => ?_⟩
      obtain ⟨fragment, hwrite, -⟩ := hv form (List.mem_of_find?_eq_some hform) p
      exact ⟨fragment, p, hp, hwrite⟩
    have hbelow {x : BlockId} (hx : w.Encloses id x) :=
      ih x (hw.above_of_encloses hx) (hw.above_of_encloses hx).contains_right
    rw [hwrite, hf.exists_parts_iff hw hv hb]
    constructor
    · rintro ⟨hrender, hslots⟩ (⟨-, hb', hslot, hc⟩ | ⟨-, hx, hstuck⟩)
      · obtain rfl := Option.some.inj (hb.symm.trans hb')
        exact hslots _ _ hslot hc
      · exact (hbelow hx).1 (hrender _ hx) hstuck
    · intro hstuck
      exact ⟨fun x hx => (hbelow hx).2 fun h => hstuck (.within hsilent hx h),
        fun check c hslot hc => hstuck (.operand hsilent hb hslot hc)⟩

/-- Nothing else is an error. -/
theorem statementText_of_render {e : Error} (h : w.contains id = true)
    (he : render v o w id = .error e) : ∃ slot form, e = .statementText slot form := by
  refine hw.below_induction (P := fun id => w.contains id = true → render v o w id = .error e →
    ∃ slot form, e = .statementText slot form) ?_ id h he
  intro id ih h he
  obtain ⟨b, hb⟩ := contains_iff_find?.1 h
  obtain ⟨form, hform, -⟩ := hf hb
  rcases hw.render_eq_error hb hform he with ⟨x, hx, hrender⟩ | hstatement | ⟨p, -, hwrite⟩
  · have habove := hw.above_of_encloses hx
    exact ih x habove habove.contains_right hrender
  · exact hstatement
  · obtain ⟨fragment, hok, -⟩ := hv form (List.mem_of_find?_eq_some hform) p
    exact nomatch hok.symm.trans hwrite

/-! ### Chains and workspaces -/

theorem exists_write_iff (h : w.contains id = true) :
    (∃ code, write v o w id = .ok code) ↔ ¬ w.Stuck v id := by
  rw [← hf.exists_render_iff hw hv (o := o) h]
  exact exists_map_eq_ok_iff

theorem exists_writeChain_iff (head : BlockId) :
    (∃ code, writeChain v o w head = .ok code) ↔ ∀ x ∈ w.chain head, ¬ w.Stuck v x := by
  have hmap : (∃ code, writeChain v o w head = .ok code) ↔
      ∃ fragments, (w.chain head).mapM (render v o w) = .ok fragments :=
    exists_bind_pure_eq_ok_iff
  rw [hmap, exists_mapM_eq_ok_iff]
  exact forall₂_congr fun x hx => hf.exists_render_iff hw hv (hw.contains_of_mem_chain hx)

theorem exists_writeRoot_iff (hb : w.find? id = some b) :
    (∃ code, writeRoot v o w id = .ok code) ↔ ∀ x ∈ w.chain id, ¬ w.Stuck v x := by
  rw [hw.exists_writeRoot_iff hb]
  exact forall₂_congr fun x hx => hf.exists_render_iff hw hv (hw.contains_of_mem_chain hx)

theorem statementText_of_write {e : Error} (h : w.contains id = true)
    (he : write v o w id = .error e) : ∃ slot form, e = .statementText slot form :=
  hf.statementText_of_render hw hv h (map_eq_error.1 he)

theorem statementText_of_writeRoot {e : Error} (hb : w.find? id = some b)
    (he : writeRoot v o w id = .error e) : ∃ slot form, e = .statementText slot form := by
  obtain ⟨x, hx, hrender⟩ := hw.exists_of_writeRoot_eq_error hb he
  exact hf.statementText_of_render hw hv (hw.contains_of_mem_chain hx) hrender

/-- No root is left out for want of its form. -/
theorem exists_section?_iff (hb : w.find? id = some b) :
    (∃ text, section? v o w id = .ok text) ↔ ∃ code, writeRoot v o w id = .ok code := by
  simp only [section?, get_of_find? hb, bind, Except.bind]
  cases hroot : writeRoot v o w id with
  | ok code => exact iff_of_true ⟨_, rfl⟩ ⟨_, rfl⟩
  | error e =>
    obtain ⟨slot, form, rfl⟩ := hf.statementText_of_writeRoot hw hv hb hroot
    exact iff_of_false not_exists_error_eq_ok not_exists_error_eq_ok

theorem exists_writeAll_iff :
    (∃ code, writeAll v o w = .ok code) ↔ ∀ root ∈ w.roots, ∀ x ∈ w.chain root, ¬ w.Stuck v x := by
  have hmap : (∃ code, writeAll v o w = .ok code) ↔
      ∃ sections, w.roots.mapM (section? v o w) = .ok sections :=
    exists_bind_pure_eq_ok_iff
  rw [hmap, exists_mapM_eq_ok_iff]
  refine forall₂_congr fun root hroot => ?_
  obtain ⟨b, hb, -⟩ := hw.exists_find?_of_mem_roots hroot
  rw [hf.exists_section?_iff hw hv hb, hf.exists_writeRoot_iff hw hv hb]

end FormedBy

/-- With forms that write whatever they are given, and by the shapes of their templates, a block is
written just if its text does not come across a silent expression; so is a chain if this holds of each
of its blocks, and a workspace if it holds of the chains of all roots. If no gated form is that of an
expression, everything is written. -/
theorem write_ok_iff_not_stuck (commands : List Command)
    (hroom : (∅ : Workspace).creations commands < wordLimit) (hv : v.WritesByShape)
    (huses : ∀ command ∈ commands, command.Uses v) (o : WritingOptions) :
    let w := (∅ : Workspace).run commands
    (∀ id, w.contains id = true →
      ((∃ code, write v o w id = .ok code) ↔ ¬ w.Stuck v id) ∧
      ((∃ code, writeChain v o w id = .ok code) ↔ ∀ x ∈ w.chain id, ¬ w.Stuck v x) ∧
      ∀ e, write v o w id = .error e → ∃ slot form, e = .statementText slot form) ∧
    ((∃ code, writeAll v o w = .ok code) ↔
      ∀ root ∈ w.roots, ∀ x ∈ w.chain root, ¬ w.Stuck v x) ∧
    ((∀ form ∈ v.forms, form.gated = true → form.template.shape.isExpression = false) →
      ∀ id, ¬ w.Stuck v id) := by
  intro w
  obtain ⟨hw, -⟩ := consistent_run consistent_empty commands (room_empty hroom)
  have hf : w.FormedBy v := formedBy_run huses
  exact ⟨fun id h => ⟨hf.exists_write_iff hw hv h, hf.exists_writeChain_iff hw hv id,
      fun e he => hf.statementText_of_write hw hv h he⟩,
    hf.exists_writeAll_iff hw hv, fun hgated => not_stuck hw hf hgated⟩

/-! ### A silent expression in a slot -/

/-- A statement with a value slot, and an expression of a gated form. -/
def gatedOperand : Vocabulary where
  forms :=
    [{ name := "use"
       role := .statement
       template := .chained "use %1" [.value "A" none] ""
       pattern := "use"
       write := fun p => .ok (.statement ("use(" ++ p.value "A" .loosest "none" ++ ")\n")) },
     { name := "sense"
       role := .expression
       gated := true
       template := .expression "sense" none [] ""
       pattern := "sense"
       write := fun p => .ok (.expression (p.fieldOr "CODE" "e") .loosest) }]
  nodup := by decide

theorem writesByShape_gatedOperand : gatedOperand.WritesByShape :=
  List.forall_mem_cons.2 ⟨fun _ => ⟨_, rfl, rfl⟩, List.forall_mem_singleton.2 fun _ => ⟨_, rfl, rfl⟩⟩

/-- The expression is beneath no entry point and therefore silent, but the statement is not. -/
theorem gatedOperand_stuck :
    let commands : List Command := [.create gatedOperand "use" ∅, .create gatedOperand "sense" ∅,
      .connectValue 1 "A" 2]
    let w := (∅ : Workspace).run commands
    (∅ : Workspace).creations commands < wordLimit ∧ w.Stuck gatedOperand 1 ∧
      ¬ w.Stuck gatedOperand 2 := by
  intro commands w
  have h : (∅ : Workspace).creations commands < wordLimit ∧ w.contains 1 = true ∧
      w.contains 2 = true ∧ write gatedOperand {} w 1 = .error (.statementText "A" "sense") ∧
      write gatedOperand {} w 2 = .ok "" := by decide +kernel
  obtain ⟨hroom, h₁, h₂, hwrite₁, hwrite₂⟩ := h
  obtain ⟨hblocks, -⟩ := write_ok_iff_not_stuck commands hroom writesByShape_gatedOperand
    (by simp [commands, Command.Uses]) {}
  refine ⟨hroom, ?_, (hblocks 2 h₂).1.1 ⟨_, hwrite₂⟩⟩
  by_contra hstuck
  obtain ⟨code, hcode⟩ := (hblocks 1 h₁).1.2 hstuck
  exact nomatch hwrite₁.symm.trans hcode

/-- So a suppressed block can be the cause of an error, which is the same for the chain and for the
whole workspace. -/
theorem gatedOperand_refused :
    let commands : List Command := [.create gatedOperand "use" ∅, .create gatedOperand "sense" ∅,
      .connectValue 1 "A" 2]
    let w := (∅ : Workspace).run commands
    gatedOperand.WritesByShape ∧ (∀ command ∈ commands, command.Uses gatedOperand) ∧
      w.IsSilent gatedOperand 2 ∧
      write gatedOperand {} w 1 = .error (.statementText "A" "sense") ∧
      writeChain gatedOperand {} w 1 = .error (.statementText "A" "sense") ∧
      writeAll gatedOperand {} w = .error (.statementText "A" "sense") := by
  intro commands w
  have h : (∃ b ∈ w.find? 2, ∃ form ∈ gatedOperand.find? b.form, form.gated = true) ∧
      isSuppressed gatedOperand w 2 = true ∧
      write gatedOperand {} w 1 = .error (.statementText "A" "sense") ∧
      writeChain gatedOperand {} w 1 = .error (.statementText "A" "sense") ∧
      writeAll gatedOperand {} w = .error (.statementText "A" "sense") := by decide +kernel
  obtain ⟨⟨b, hb, form, hform, hgated⟩, hsuppressed, hwrite⟩ := h
  exact ⟨writesByShape_gatedOperand, by simp [commands, Command.Uses],
    ⟨b, form, hb, hform, hgated, hsuppressed⟩, hwrite⟩

end Workspace

end ScriptBlocks
