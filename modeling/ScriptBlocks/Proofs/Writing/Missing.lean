import Mathlib.Data.List.ReduceOption
import ScriptBlocks.Proofs.Writing.Refusal

/-!
# Roots without a section

Blocks can be made of forms that the writer does not know. A root is left out of the text of a
workspace if its own text is blank, and also if a block of an unknown form is come across anywhere
in that text: in a slot of the root, at any depth, or among the statements after it. So a root of a
known form can be left out with all that it holds, for the sake of one block.

## Main definitions

* `Workspace.Shows` — the text of one block takes in that of another
* `Workspace.IsForeign` — the text of a block cannot be told for want of a form
* `Workspace.IsSection` — what stands for a root in the text of a workspace

## Main statements

* `Workspace.Consistent.exists_shows_isForeign` — what the writer has come across when it misses a
  form
* `Workspace.Consistent.isSection` — which roots have a section
* `Workspace.exists_sections_of_writeAll` — the text of a workspace is made of these sections
* `Workspace.known_root_left_out` — a known root that has a text of its own and is left out
-/

namespace ScriptBlocks.Workspace

/-- The text of the first block takes in that of the second, which is the first one itself, or lies in
a slot of a block that is taken in and not silent. -/
inductive Shows (v : Vocabulary) (w : Workspace) : BlockId → BlockId → Prop
  | self (id : BlockId) : Shows v w id id
  | within {p c x : BlockId} (hp : ¬ w.IsSilent v p) (hencloses : w.Encloses p c)
    (hx : Shows v w c x) : Shows v w p x

/-- The block is of a form that the writer does not know, or its form says so of another one. -/
def IsForeign (v : Vocabulary) (o : WritingOptions) (w : Workspace) (id : BlockId) : Prop :=
  ∃ b, w.find? id = some b ∧ match v.find? b.form with
    | none => True
    | some form => ¬ w.IsSilent v id ∧ ∃ p name,
        w.parts v o (render v o w) form b id = .ok p ∧ form.write p = .error (.unknownForm name)

/-- The text that starts at a root comes across a foreign block. -/
def ShowsForeign (v : Vocabulary) (o : WritingOptions) (w : Workspace) (root : BlockId) : Prop :=
  ∃ x ∈ w.chain root, ∃ y, w.Shows v x y ∧ w.IsForeign v o y

/-- The section of a root: its text, unless that is blank or comes across a foreign block. -/
structure IsSection (v : Vocabulary) (o : WritingOptions) (w : Workspace) (root : BlockId)
    (s : Option String) : Prop where
  eq_some_iff {code : String} :
    s = some code ↔ writeRoot v o w root = .ok code ∧ Text.isBlank code.toList = false
  eq_none_iff : s = none ↔
    (∃ code, writeRoot v o w root = .ok code ∧ Text.isBlank code.toList = true) ∨
      w.ShowsForeign v o root

variable {w : Workspace} {v : Vocabulary} {o : WritingOptions} {id c x root : BlockId} {b : Block}
  {form : Form}

theorem render_of_find?_eq_none (hb : w.find? id = some b) (hform : v.find? b.form = none) :
    render v o w id = .error (.unknownForm b.form) := by
  rw [render, renderWithin, get_of_find? hb]
  simp only [bind, Except.bind, Vocabulary.get, hform]

namespace Consistent

variable (hw : w.Consistent)
include hw

/-- What has been written has taken in only what can be written. -/
theorem exists_render_of_addSlotText {e : String × Slot} {p p' : Parts} (hb : w.find? id = some b)
    (he : e ∈ b.slots.entries) (h : w.addSlotText (render v o w) p e = .ok p') {head : BlockId}
    (hhead : e.2.occupant = some head) (hx : x ∈ w.chain head) :
    ∃ fragment, render v o w x = .ok fragment := by
  match e, hhead with
  | (slot, .value check (some _)), rfl =>
    obtain ⟨child, hchild, hshape⟩ := hw.isExpression_of_mem_slots hb (List.mem_map_of_mem he)
    rw [hw.chain_of_isExpression hchild hshape, List.mem_singleton] at hx
    subst hx
    simp only [addSlotText, operand, bind_eq_ok] at h
    obtain ⟨_, ⟨fragment, hfragment, -⟩, -⟩ := h
    exact ⟨fragment, hfragment⟩
  | (slot, .statement (some _)), rfl =>
    simp only [addSlotText, chainText, bind_eq_ok] at h
    obtain ⟨_, ⟨fragments, hfragments, -⟩, -⟩ := h
    exact exists_mapM_eq_ok_iff.1 ⟨fragments, hfragments⟩ x hx

theorem exists_render_of_encloses {fragment : Fragment} (hsilent : ¬ w.IsSilent v id)
    (h : render v o w id = .ok fragment) (hc : w.Encloses id c) :
    ∃ fragment, render v o w c = .ok fragment := by
  obtain ⟨head, ⟨b, hb, s, hs, hhead⟩, hmem⟩ := hw.exists_mem_chain_of_encloses hc
  obtain ⟨e, he, rfl⟩ := List.mem_map.1 hs
  cases hform : v.find? b.form with
  | none => exact nomatch (render_of_find?_eq_none hb hform).symm.trans h
  | some form =>
    rw [render_of_not_isSilent hw hb hform hsilent, bind_eq_ok] at h
    obtain ⟨p, hparts, -⟩ := h
    simp only [parts, bind_eq_ok] at hparts
    obtain ⟨p', hfold, -⟩ := hparts
    obtain ⟨p₁, p₂, hadd⟩ := exists_of_mem_foldlM hfold he
    exact hw.exists_render_of_addSlotText hb he hadd hhead hmem

/-- A text that could be put together shows no foreign block. -/
theorem not_isForeign_of_shows {fragment : Fragment} (h : render v o w id = .ok fragment)
    (hx : w.Shows v id x) : ¬ w.IsForeign v o x := by
  induction hx generalizing fragment with
  | self id =>
    rintro ⟨b, hb, hforeign⟩
    cases hform : v.find? b.form with
    | none => exact nomatch (render_of_find?_eq_none hb hform).symm.trans h
    | some form =>
      rw [hform] at hforeign
      obtain ⟨hsilent, p, name, hparts, hwrite⟩ := hforeign
      rw [render_of_not_isSilent hw hb hform hsilent, hparts] at h
      exact nomatch hwrite.symm.trans h
  | within hp hencloses _ ih =>
    obtain ⟨fragment', h'⟩ := hw.exists_render_of_encloses hp h hencloses
    exact ih h'

/-- A text that is refused for want of a form shows a foreign block. -/
theorem exists_shows_isForeign {name : String} (hcontains : w.contains id = true)
    (h : render v o w id = .error (.unknownForm name)) : ∃ x, w.Shows v id x ∧ w.IsForeign v o x := by
  refine hw.below_induction (P := fun id => w.contains id = true →
    render v o w id = .error (.unknownForm name) → ∃ x, w.Shows v id x ∧ w.IsForeign v o x) ?_ id
    hcontains h
  intro id ih hcontains h
  obtain ⟨b, hb⟩ := contains_iff_find?.1 hcontains
  cases hform : v.find? b.form with
  | none => exact ⟨id, .self id, b, hb, by rw [hform]; trivial⟩
  | some form =>
    have hsilent : ¬ w.IsSilent v id := by
      intro hsilent
      exact nomatch (render_of_isSilent hw hsilent).symm.trans h
    rcases hw.render_eq_error hb hform h with ⟨c, hc, hrender⟩ | ⟨_, _, hstatement⟩ | ⟨p, hparts, hwrite⟩
    · have habove := hw.above_of_encloses hc
      obtain ⟨x, hx, hforeign⟩ := ih c habove habove.contains_right hrender
      exact ⟨x, .within hsilent hc hx, hforeign⟩
    · exact nomatch hstatement
    · refine ⟨id, .self id, b, hb, ?_⟩
      rw [hform]
      exact ⟨hsilent, p, name, hparts, hwrite⟩

/-! ### Roots -/

theorem not_showsForeign {code : String} (hb : w.find? root = some b)
    (h : writeRoot v o w root = .ok code) : ¬ w.ShowsForeign v o root := by
  rintro ⟨x, hx, y, hy, hforeign⟩
  obtain ⟨fragment, hrender⟩ := (hw.exists_writeRoot_iff hb).1 ⟨code, h⟩ x hx
  exact hw.not_isForeign_of_shows hrender hy hforeign

theorem showsForeign {name : String} (hb : w.find? root = some b)
    (h : writeRoot v o w root = .error (.unknownForm name)) : w.ShowsForeign v o root := by
  obtain ⟨x, hx, hrender⟩ := hw.exists_of_writeRoot_eq_error hb h
  obtain ⟨y, hy, hforeign⟩ := hw.exists_shows_isForeign (hw.contains_of_mem_chain hx) hrender
  exact ⟨x, hx, y, hy, hforeign⟩

theorem isSection_of_writeRoot_eq_ok {code : String} (hb : w.find? root = some b)
    (h : writeRoot v o w root = .ok code) :
    w.IsSection v o root (if Text.isBlank code.toList then none else some code) := by
  have hknown := hw.not_showsForeign hb h
  have hcode {code' : String} (h' : writeRoot v o w root = .ok code') : code = code' :=
    Except.ok.inj (h.symm.trans h')
  by_cases hblank : Text.isBlank code.toList = true
  · rw [if_pos hblank]
    refine ⟨iff_of_false nofun ?_, iff_of_true rfl (.inl ⟨code, h, hblank⟩)⟩
    rintro ⟨h', hnot⟩
    exact Bool.false_ne_true (hnot.symm.trans (hcode h' ▸ hblank))
  · rw [if_neg hblank]
    rw [Bool.not_eq_true] at hblank
    refine ⟨fun {code'} => ⟨?_, fun h' => congrArg some (hcode h'.1)⟩, iff_of_false nofun ?_⟩
    · intro heq
      obtain rfl := Option.some.inj heq
      exact ⟨h, hblank⟩
    · rintro (⟨code', h', hnot⟩ | hforeign)
      · exact Bool.false_ne_true (hblank.symm.trans (hcode h' ▸ hnot))
      · exact hknown hforeign

theorem isSection_of_writeRoot_eq_error {name : String} (hb : w.find? root = some b)
    (h : writeRoot v o w root = .error (.unknownForm name)) : w.IsSection v o root none := by
  refine ⟨iff_of_false nofun ?_, iff_of_true rfl (.inr (hw.showsForeign hb h))⟩
  rintro ⟨hcode, -⟩
  exact nomatch h.symm.trans hcode

theorem isSection {s : Option String} (hb : w.find? root = some b)
    (h : section? v o w root = .ok s) : w.IsSection v o root s := by
  simp only [section?, get_of_find? hb, bind, Except.bind] at h
  cases hroot : writeRoot v o w root with
  | ok code =>
    rw [hroot] at h
    exact Except.ok.inj h ▸ hw.isSection_of_writeRoot_eq_ok hb hroot
  | error e =>
    rw [hroot] at h
    -- no other error is passed over
    cases e with
    | unknownForm name => exact Except.ok.inj h ▸ hw.isSection_of_writeRoot_eq_error hb hroot
    | _ => cases h

end Consistent

/-- Where a workspace is written, each root has its section but those whose text is blank or comes
across a foreign block. So a root of a known form is left out only for one of these two reasons, be
the blocks of the workspace from whatever vocabularies. -/
theorem exists_sections_of_writeAll (commands : List Command)
    (hroom : (∅ : Workspace).creations commands < wordLimit) (v : Vocabulary) (o : WritingOptions)
    {text : String} (h : writeAll v o ((∅ : Workspace).run commands) = .ok text) :
    let w := (∅ : Workspace).run commands
    ∃ sections : List (Option String), List.Forall₂ (w.IsSection v o) w.roots sections ∧
      text = "\n".intercalate (sections.reduceOption) := by
  intro w
  obtain ⟨hw, -⟩ := consistent_run consistent_empty commands (room_empty hroom)
  rw [writeAll, bind_eq_ok] at h
  obtain ⟨sections, hsections, heq⟩ := h
  refine ⟨sections, ?_, (Except.ok.inj heq).symm⟩
  clear heq
  have hroots : ∀ root ∈ w.roots, ∃ b, w.find? root = some b := fun root hroot => by
    obtain ⟨b, hb, -⟩ := hw.exists_find?_of_mem_roots hroot
    exact ⟨b, hb⟩
  rw [mapM_eq_ok_iff] at hsections
  generalize w.roots = roots at hroots hsections
  induction hsections with
  | nil => exact .nil
  | cons hfirst _ ih =>
    obtain ⟨hroot, hroots⟩ := List.forall_mem_cons.1 hroots
    obtain ⟨b, hb⟩ := hroot
    exact .cons (hw.isSection hb hfirst) (ih hroots)

/-! ### A root of a known form -/

/-- A statement that the dialect does not know. -/
def signal : Vocabulary where
  forms :=
    [{ name := "signal"
       role := .statement
       template := .chained "signal" [] ""
       pattern := "signal()"
       write := fun _ => .ok (.statement "signal()\n") }]
  nodup := by decide

/-- A root with a foreign statement after it, one that is foreign itself, one that is silent, and one
that is written. -/
theorem exists_sections_of_four_roots :
    let commands : List Command :=
      [.create Dialect.vocabulary "music_rest" (.ofList [("DURATION", .int 2)]),
        .create signal "signal" ∅, .append 1 2, .create signal "signal" ∅,
        .create Dialect.vocabulary "pause" ∅, .create Dialect.vocabulary "on_start" ∅]
    let w := (∅ : Workspace).run commands
    (∅ : Workspace).creations commands < wordLimit ∧
      writeAll Dialect.vocabulary {} w = .ok "def on_start():\n    pass\n\non_start()\n" ∧
      ∃ sections : List (Option String),
        List.Forall₂ (w.IsSection Dialect.vocabulary {}) w.roots sections ∧
          "def on_start():\n    pass\n\non_start()\n" = "\n".intercalate (sections.reduceOption) := by
  intro commands w
  have h : (∅ : Workspace).creations commands < wordLimit ∧
      writeAll Dialect.vocabulary {} w = .ok "def on_start():\n    pass\n\non_start()\n" := by
    decide +kernel
  obtain ⟨hroom, hwrite⟩ := h
  exact ⟨hroom, hwrite, exists_sections_of_writeAll commands hroom Dialect.vocabulary {} hwrite⟩

/-- A statement of the dialect that starts a chain and has a text of its own is lost, without an error,
for the foreign statement after it. -/
theorem known_root_left_out :
    let commands : List Command :=
      [.create Dialect.vocabulary "music_rest" (.ofList [("DURATION", .int 2)]),
        .create signal "signal" ∅, .append 1 2]
    let w := (∅ : Workspace).run commands
    (∅ : Workspace).creations commands < wordLimit ∧ w.roots = [1] ∧
      (∃ b ∈ w.find? 1, ∃ form ∈ Dialect.vocabulary.find? b.form, form.name = "music_rest") ∧
      write Dialect.vocabulary {} w 1 = .ok "music.rest(2)\n" ∧
      writeChain Dialect.vocabulary {} w 1 = .error (.unknownForm "signal") ∧
      writeAll Dialect.vocabulary {} w = .ok "" := by
  decide +kernel

end ScriptBlocks.Workspace
