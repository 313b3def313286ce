import ScriptBlocks.Proofs.Except
import ScriptBlocks.Proofs.Run
import ScriptBlocks.Proofs.Workspace.Downward
import ScriptBlocks.Writing

/-!
# What a text depends on

The text of a block is put together from what lies in its slots. Beyond that it depends on the block
itself but for its links, on the names of variables, and, where forms are gated, on whether something
around the block is disabled and on the form at the top of its stack. Statements before or after it,
other stacks, and other slots of the blocks around it are of no consequence.

## Main definitions

* `Workspace.SameFootprint` — two workspaces agree on all that the text of a block depends on

## Main statements

* `Workspace.SameFootprint.of_encloses` — then they agree on that for what lies in the slots of the
  block
* `Workspace.SameFootprint.renderWithin_eq` — the text is the same, however deep the two workspaces are
* `Workspace.Consistent.render_eq` — the text of a block from the texts of what lies in its slots
* `Workspace.render_eq_of_sameFootprint` — the text of a block in two workspaces that were built by
  commands
-/

namespace ScriptBlocks.Workspace

/-- The workspaces agree on all that the text of the block depends on. -/
structure SameFootprint (w w' : Workspace) (id : BlockId) : Prop where
  /-- The block is there in both, the same but for its links to other statements. -/
  exists_block : ∃ b b', w.find? id = some b ∧ w'.find? id = some b' ∧ b'.form = b.form ∧
    b'.fields = b.fields ∧ b'.slots = b.slots ∧ b'.enabled = b.enabled
  /-- What lies in its slots, at any depth, is the same. -/
  find?_eq {c : BlockId} : Relation.TransGen w.Encloses id c → w'.find? c = w.find? c
  /-- Something around the block is disabled in both, or in neither. -/
  off_iff : (∃ p, Relation.TransGen w'.Encloses p id ∧ w'.IsOff p) ↔
    ∃ p, Relation.TransGen w.Encloses p id ∧ w.IsOff p
  /-- The top of its stack is of the same form. -/
  form_rootOf : (w'.find? (w'.rootOf id)).map Block.form = (w.find? (w.rootOf id)).map Block.form
  variableNames_eq : w'.variableNames = w.variableNames

variable {w w' : Workspace} {v : Vocabulary} {o : WritingOptions} {id c : BlockId} {b b' : Block}

theorem SameFootprint.refl (h : w.find? id = some b) : w.SameFootprint w id where
  exists_block := ⟨b, b, h, h, rfl, rfl, rfl, rfl⟩
  find?_eq _ := rfl
  off_iff := Iff.rfl
  form_rootOf := rfl
  variableNames_eq := rfl

/-- The block that the value slot or the statement slot of an entry holds lies in a slot. -/
theorem encloses_of_mem_slots {e : String × Slot} (hb : w.find? id = some b)
    (he : e ∈ b.slots.entries) (hc : e.2.occupant = some c) : w.Encloses id c :=
  .slot ⟨b, hb, e.2, List.mem_map_of_mem he, hc⟩

theorem encloses_of_mem_bodies (hb : w.find? id = some b)
    (hc : c ∈ b.slots.values.filterMap fun
      | .statement head => head
      | .value .. => none) : w.Encloses id c := by
  obtain ⟨s, hs, hhead⟩ := List.mem_filterMap.1 hc
  refine .slot ⟨b, hb, s, hs, ?_⟩
  cases s with
  | value => exact nomatch hhead
  | statement => exact hhead

namespace SameFootprint

/-! ### What lies in the slots -/

theorem isOff_iff (h : w.SameFootprint w' id) : w'.IsOff id ↔ w.IsOff id := by
  obtain ⟨b, b', hb, hb', -, -, -, henabled⟩ := h.exists_block
  simp only [IsOff, hb, hb', Option.some.injEq, exists_eq_left', henabled]

theorem resolveName_eq (h : w.SameFootprint w' id) (raw fallback : String) :
    w'.resolveName raw fallback = w.resolveName raw fallback := by
  rw [resolveName, resolveName, variableName?, variableName?, h.variableNames_eq]

theorem encloses (h : w.SameFootprint w' id) (hc : w.Encloses id c) : w'.Encloses id c := by
  induction hc with
  | slot hslot =>
    obtain ⟨b, b', hb, hb', -, -, hslots, -⟩ := h.exists_block
    obtain ⟨owner, howner, s, hs, hoccupant⟩ := hslot
    obtain rfl := Option.some.inj (hb.symm.trans howner)
    exact .slot ⟨b', hb', s, hslots ▸ hs, hoccupant⟩
  | next ha hnext ih =>
    refine ih.next ?_
    rwa [Precedes, h.find?_eq (.single ha)]

theorem find?_of_below (hw : w.Consistent) (h : w.SameFootprint w' id) (hc : w.Encloses id c)
    (x : BlockId) (hx : x = c ∨ w.Above c x) : w'.find? x = w.find? x :=
  h.find?_eq (hw.transGen_encloses_of_above hc hx)

section

variable (hw : w.Consistent) (hw' : w'.Consistent) (h : w.SameFootprint w' id)
include hw hw' h

/-- What lies in the slots of the block has the same footprint too. -/
theorem of_encloses (hc : w.Encloses id c) : w.SameFootprint w' c where
  exists_block := by
    obtain ⟨child, hchild⟩ := contains_iff_find?.1 (hw.above_of_encloses hc).contains_right
    exact ⟨child, child, hchild, (h.find?_eq (.single hc)).trans hchild, rfl, rfl, rfl, rfl⟩
  find?_eq hd := h.find?_eq (.head hc hd)
  off_iff := by
    rw [hw.exists_off_iff hc, hw'.exists_off_iff (h.encloses hc), h.isOff_iff,
      h.off_iff]
  form_rootOf := by
    rw [hw.rootOf_of_above (hw.above_of_encloses hc),
      hw'.rootOf_of_above (hw'.above_of_encloses (h.encloses hc)), h.form_rootOf]
  variableNames_eq := h.variableNames_eq

/-! ### What is looked at -/

theorem isSuppressed_eq : isSuppressed v w' id = isSuppressed v w id := by
  obtain ⟨b, b', hb, hb', -⟩ := h.exists_block
  have hform (u : Workspace) : ((u.find? (u.rootOf id)).bind fun root => v.find? root.form) =
      ((u.find? (u.rootOf id)).map Block.form).bind v.find? := by
    rw [Option.bind_map]
    rfl
  have hoff : w'.isDisabled id = w.isDisabled id := by
    rw [Bool.eq_iff_iff, hw.isDisabled_iff (contains_of_find? hb),
      hw'.isDisabled_iff (contains_of_find? hb'), h.isOff_iff, h.off_iff]
  rw [isSuppressed, isSuppressed, hform, hform, h.form_rootOf, hoff]

theorem chain_eq (hc : w.Encloses id c) : w'.chain c = w.chain c :=
  hw.chain_congr hw' (h.find?_of_below hw hc)

theorem freeVariables_eq (fallback : String) :
    freeVariables v fallback w' id = freeVariables v fallback w id := by
  obtain ⟨b, b', hb, hb', -, -, hslots, -⟩ := h.exists_block
  have hbody : w'.bodyBlocks b' = w.bodyBlocks b := by
    rw [bodyBlocks, bodyBlocks, hslots]
    exact List.flatMap_congr fun head hmem =>
      hw.descendants_congr hw' (h.find?_of_below hw (encloses_of_mem_bodies hb hmem))
  simp only [freeVariables, hb, hb', hbody]
  refine congrArg distinct (List.filterMap_congr fun x hx => ?_)
  obtain ⟨head, hmem, hx⟩ := List.mem_flatMap.1 hx
  have hfind := h.find?_of_below hw (encloses_of_mem_bodies hb hmem) x
    (hw.mem_descendants_iff.1 hx).2
  simp only [referencedName, hfind, h.resolveName_eq]

/-! ### Texts -/

theorem addSlotText_eq {render render' : BlockId → Except Error Fragment}
    (hrender : ∀ c, w.Encloses id c → render' c = render c) (hb : w.find? id = some b)
    {e : String × Slot} (he : e ∈ b.slots.entries) (p : Parts) :
    w'.addSlotText render' p e = w.addSlotText render p e := by
  match e with
  | (_, .value _ none) | (_, .statement none) => rfl
  | (slot, .value check (some c)) =>
    have hc := encloses_of_mem_slots hb he rfl
    rw [addSlotText, addSlotText, operand, operand, hrender c hc, get, get,
      h.find?_eq (.single hc)]
  | (slot, .statement (some head)) =>
    have hhead := encloses_of_mem_slots hb he rfl
    have htext : w'.chainText render' head = w.chainText render head := by
      have hchain c (hc : c ∈ w.chain head) : render' c = render c :=
        hrender c (encloses_of_mem_chainWithin hhead hc)
      rw [chainText, chainText, chain_eq hw hw' h hhead, mapM_congr_of_mem hchain]
    rw [addSlotText, addSlotText, htext]

theorem parts_eq {render render' : BlockId → Except Error Fragment}
    (hrender : ∀ c, w.Encloses id c → render' c = render c) (hb : w.find? id = some b)
    (hfields : b'.fields = b.fields) (hslots : b'.slots = b.slots) (form : Form) :
    w'.parts v o render' form b' id = w.parts v o render form b id := by
  rw [parts, parts, hfields, hslots, freeVariables_eq hw hw' h,
    foldlM_congr_of_mem _ fun p e he => addSlotText_eq hw hw' h hrender hb he p]
  simp only [h.resolveName_eq]

end

/-- The text is the same, with any two bounds that reach down to what lies deepest. -/
theorem renderWithin_eq (hw : w.Consistent) (hw' : w'.Consistent) {n m : Nat}
    (h : w.SameFootprint w' id) (hn : w.size ≤ n + w.depth id) (hm : w'.size ≤ m + w'.depth id) :
    renderWithin v o w' m id = renderWithin v o w n id := by
  obtain ⟨b, b', hb, hb', hform, hfields, hslots, -⟩ := h.exists_block
  have hsize := hw.depth_lt_size (contains_of_find? hb)
  have hsize' := hw'.depth_lt_size (contains_of_find? hb')
  induction n generalizing m id b b' with
  | zero => omega
  | succ n ih =>
    cases m with
    | zero => omega
    | succ m =>
      have hrender c (hc : w.Encloses id c) :
          renderWithin v o w' m c = renderWithin v o w n c := by
        have hfootprint := h.of_encloses hw hw' hc
        obtain ⟨child, child', hchild, hchild', hform, hfields, hslots, -⟩ := hfootprint.exists_block
        have hdepth := hw.depth_lt_of_above (hw.above_of_encloses hc)
        have hdepth' := hw'.depth_lt_of_above (hw'.above_of_encloses (h.encloses hc))
        exact ih hfootprint (by omega) (by omega) child child' hchild hchild' hform hfields hslots
          (hw.depth_lt_size (contains_of_find? hchild))
          (hw'.depth_lt_size (contains_of_find? hchild'))
      simp only [renderWithin, get_of_find? hb, get_of_find? hb', hform,
        h.isSuppressed_eq hw hw', h.parts_eq hw hw' hrender hb hfields hslots, bind, Except.bind]

theorem render_eq (hw : w.Consistent) (hw' : w'.Consistent) (h : w.SameFootprint w' id) :
    render v o w' id = render v o w id :=
  h.renderWithin_eq hw hw' (by omega) (by omega)

end SameFootprint

/-- The text of a block is put together by its form from the texts of what lies in its slots. -/
theorem Consistent.render_eq (hw : w.Consistent) {form : Form} (hb : w.find? id = some b)
    (hform : v.find? b.form = some form) :
    render v o w id = if form.gated && isSuppressed v w id then .ok (.statement "")
      else w.parts v o (render v o w) form b id >>= form.write := by
  have hrender c (hc : w.Encloses id c) :
      renderWithin v o w w.size c = render v o w c := by
    obtain ⟨child, hchild⟩ := contains_iff_find?.1 (hw.above_of_encloses hc).contains_right
    exact (SameFootprint.refl hchild).renderWithin_eq hw hw (by omega) (by omega)
  rw [render, renderWithin, get_of_find? hb,
    ← (SameFootprint.refl hb).parts_eq hw hw hrender hb rfl rfl]
  simp only [bind, Except.bind, Vocabulary.get_eq_ok_iff.2 hform]
  rfl

/-- Writing is local: two workspaces that were built by commands, whatever their vocabularies, and
agree on the footprint of a block give the same text for it. -/
theorem render_eq_of_sameFootprint (commands commands' : List Command)
    (hroom : (∅ : Workspace).creations commands < wordLimit)
    (hroom' : (∅ : Workspace).creations commands' < wordLimit) (v : Vocabulary) (o : WritingOptions)
    (h : ((∅ : Workspace).run commands).SameFootprint ((∅ : Workspace).run commands') id) :
    render v o ((∅ : Workspace).run commands') id = render v o ((∅ : Workspace).run commands) id ∧
      write v o ((∅ : Workspace).run commands') id =
        write v o ((∅ : Workspace).run commands) id := by
  obtain ⟨hw, -⟩ := consistent_run consistent_empty commands (room_empty hroom)
  obtain ⟨hw', -⟩ := consistent_run consistent_empty commands' (room_empty hroom')
  have hrender := h.render_eq hw hw' (v := v) (o := o)
  exact ⟨hrender, congrArg (Except.map Fragment.code) hrender⟩

/-- A statement alone in a loop, and between a disabled statement and one more. -/
theorem write_eq_between_statements :
    let made : List Command :=
      [.create Dialect.vocabulary "forever" ∅, .create Dialect.vocabulary "show_number" ∅,
        .create Dialect.vocabulary "math_number" (.ofList [("NUM", .int 7)]),
        .connectValue 2 "NUM" 3]
    let w := (∅ : Workspace).run (made ++ [.connectStatement 1 "DO" 2])
    let w' := (∅ : Workspace).run (made ++ [.create Dialect.vocabulary "pause" ∅,
      .create Dialect.vocabulary "pause" ∅, .connectStatement 1 "DO" 4, .append 4 2, .append 2 5,
      .setEnabled 4 false])
    w'.find? 2 ≠ w.find? 2 ∧ write Dialect.vocabulary {} w 2 = .ok "basic.show_number(7)\n" ∧
      write Dialect.vocabulary {} w' 2 = write Dialect.vocabulary {} w 2 := by
  intro made w w'
  have hroom : (∅ : Workspace).creations (made ++ [.connectStatement 1 "DO" 2]) < wordLimit ∧
      (∅ : Workspace).creations (made ++ [.create Dialect.vocabulary "pause" ∅,
        .create Dialect.vocabulary "pause" ∅, .connectStatement 1 "DO" 4, .append 4 2, .append 2 5,
        .setEnabled 4 false]) < wordLimit := by decide +kernel
  obtain ⟨hw, -⟩ := consistent_run consistent_empty _ (room_empty hroom.1)
  obtain ⟨hw', -⟩ := consistent_run consistent_empty _ (room_empty hroom.2)
  have h : (∃ b ∈ w.find? 2, ∃ b' ∈ w'.find? 2, b'.form = b.form ∧ b'.fields = b.fields ∧
        b'.slots = b.slots ∧ b'.enabled = b.enabled) ∧
      (∀ c ∈ w.descendants 2, c = 2 ∨ w'.find? c = w.find? c) ∧
      w.isDisabled 2 = false ∧ w'.isDisabled 2 = false ∧
      (w'.find? (w'.rootOf 2)).map Block.form = (w.find? (w.rootOf 2)).map Block.form ∧
      w'.variableNames = w.variableNames ∧ w'.find? 2 ≠ w.find? 2 ∧
      write Dialect.vocabulary {} w 2 = .ok "basic.show_number(7)\n" := by
    decide +kernel
  obtain ⟨⟨b, hb, b', hb', hsame⟩, hbelow, hon, hon', hroot, hnames, hne, hwrite⟩ := h
  have hfootprint : w.SameFootprint w' 2 :=
    { exists_block := ⟨b, b', hb, hb', hsame⟩
      find?_eq := fun {c} hc => by
        have habove := hw.above_of_transGen_encloses hc
        rcases hbelow c (hw.mem_descendants_of_above habove) with rfl | hsame
        · exact absurd habove hw.acyclic
        · exact hsame
      off_iff := by
        refine iff_of_false (fun hoff => ?_) (fun hoff => ?_)
        · exact nomatch ((hw'.isDisabled_iff (contains_of_find? hb')).2 (.inr hoff)).symm.trans hon'
        · exact nomatch ((hw.isDisabled_iff (contains_of_find? hb)).2 (.inr hoff)).symm.trans hon
      form_rootOf := hroot
      variableNames_eq := hnames }
  exact ⟨hne, hwrite, (render_eq_of_sameFootprint _ _ hroom.1 hroom.2 _ _ hfootprint).2⟩

end ScriptBlocks.Workspace
