import ScriptBlocks.Proofs.Reading.Host
import ScriptBlocks.Proofs.Vocabulary
import ScriptBlocks.Proofs.Workspace.Formed

/-!
# Registering a form changes no earlier decision

A form that is registered later is asked last, so a line that some form has taken is taken by the
same form, with the same match. What is built for it is the same as well, unless it has arguments:
the new form may take an argument that nobody could read.

A block without value slots was built without arguments. Where the library builds it this is a fact
about the template of its form, since no block loses a slot that it was made with, whatever is done
to the workspace before the line is finished. A function of the host is trusted to do as its
contract says: what it builds depends on the workspace and on the field values.

## Main definitions

* `Block.TakesNoValues` — a block without value slots
* `HostConstruct.GoesByFields` — the contract of a function of the host
* `Registry.ReadsPlainly` — each line is passed over or becomes a block without value slots

## Main statements

* `Workspace.construct_of_built` — what is built without arguments is built in the same way
* `Registry.readDocument_of_register` — a document that is read plainly is read as before
* `Registry.readDocument_vocabulary_of_register` — with no contract where there are no functions
* `Registry.register_keeps_decisions` — what a registration leaves as it is
-/

namespace ScriptBlocks

/-! ### Blocks without value slots -/

/-- The block has no value slots. -/
def Block.TakesNoValues (b : Block) : Prop := ∀ s ∈ b.slots.values, s.isStatement = true

instance : DecidablePred Block.TakesNoValues := fun b =>
  inferInstanceAs (Decidable (∀ s ∈ b.slots.values, s.isStatement = true))

/-- A block with the frame of a form has a value slot for each value argument, where no two
arguments have one name, and none of them is lost later. -/
theorem Block.valueSlots_eq_nil {b b' : Block} {form : Form} (hframe : b.FramedBy form)
    (hnodup : form.template.argNames.Nodup) (hslots : b.SlotsWithin b') (h : b'.TakesNoValues) :
    form.template.valueSlots = [] := by
  refine List.eq_nil_iff_forall_not_mem.2 fun ⟨name, check⟩ hmem => ?_
  obtain ⟨id, fields, hsame⟩ := hframe
  have hempty : b.emptySlots.find? name = some (.value check none) := by
    rw [hsame.emptySlots, emptySlots, OrderedMap.find?_mapValues,
      find?_slots_ofTemplate hnodup (Template.mem_valueSlots.1 hmem) rfl]
    rfl
  have hkept := hslots hempty
  rw [emptySlots, OrderedMap.find?_mapValues] at hkept
  obtain ⟨s, hs, hhold⟩ := Option.map_eq_some_iff.1 hkept
  have hstatement := h s (OrderedMap.mem_values_of_find? hs)
  cases s with
  | value => cases hstatement
  | statement => cases hhold

namespace Workspace

variable {v v' : Vocabulary} {form : Form} {w w' : Workspace} {id : BlockId}

/-! ### Building -/

theorem create_of_ok (hv : v.forms ⊆ v'.forms) {name : String} {fields : Fields}
    (h : w.create v name fields = .ok (id, w')) : w.create v' name fields = .ok (id, w') := by
  obtain ⟨g, hg, hid, hw'⟩ := create_eq_ok.1 h
  exact create_eq_ok.2 ⟨g, Vocabulary.get_of_subset hv hg, hid, hw'⟩

theorem attachShadow_of_ok (hv : v.forms ⊆ v'.forms) {p : BlockId} {slot name : String}
    {fields : Fields} (h : attachShadow v w p slot name fields = (.ok id, w')) :
    attachShadow v' w p slot name fields = (.ok id, w') := by
  rw [attachShadow] at h ⊢
  cases hshadow : w.createShadow v name fields with
  | error e =>
    rw [hshadow] at h
    cases h
  | ok r =>
    obtain ⟨literal, w₁⟩ := r
    obtain ⟨w₀, hcreate, hw₁⟩ := createShadow_eq_ok.1 hshadow
    rw [hshadow] at h
    rw [createShadow_eq_ok.2 ⟨w₀, create_of_ok hv hcreate, hw₁⟩]
    exact h

theorem fillSlots_of_ok (hv : v.forms ⊆ v'.forms)
    {attach attach' : Workspace → BlockId → String → String → Attempt Unit} {fields : Fields}
    (hargs : form.construction = .withArguments → form.template.valueSlots = [])
    (h : fillSlots v attach w id form fields = (.ok (), w')) :
    fillSlots v' attach' w id form fields = (.ok (), w') := by
  rw [fillSlots] at h ⊢
  cases hconstruction : form.construction with
  | bare =>
    rw [hconstruction] at h
    exact h
  | withArguments =>
    rw [hconstruction] at h
    rw [hargs hconstruction, List.map_nil, takeArguments] at h ⊢
    exact h
  | literal slot literal field fallback =>
    rw [hconstruction] at h
    dsimp only at h ⊢
    cases hvalue : (fields.find? slot).or fallback with
    | none =>
      rw [hvalue] at h
      exact h
    | some value =>
      rw [hvalue] at h
      dsimp only at h ⊢
      rcases hshadow : attachShadow v w id slot literal (.ofList [(field, value)]) with ⟨e | x, w₁⟩
      · rw [hshadow] at h
        cases h
      · rw [hshadow] at h
        rw [attachShadow_of_ok hv hshadow]
        exact h

/-- What is built without arguments is built in the same way. -/
theorem construct_of_built (hv : v.forms ⊆ v'.forms)
    {attach attach' : Workspace → BlockId → String → String → Attempt Unit} {fields : Fields}
    (hargs : form.construction = .withArguments → form.template.valueSlots = [])
    (h : construct v attach w form fields = (.ok id, w')) :
    construct v' attach' w form fields = (.ok id, w') := by
  -- a block whose slots could not be filled would have been discarded
  obtain ⟨w₁, hcreate, hfill⟩ := construct_eq_ok.1 h
  exact construct_eq_ok.2 ⟨w₁, create_of_ok hv hcreate, fillSlots_of_ok hv hargs hfill⟩

/-- A block is created with the frame of its form. -/
theorem exists_framedBy_of_create (hmem : form ∈ v.forms) {fields : Fields}
    (hcreate : w.create v form.name fields = .ok (id, w')) :
    ∃ b, w'.find? id = some b ∧ b.FramedBy form := by
  obtain ⟨g, hg, -, rfl⟩ := create_eq_ok.1 hcreate
  obtain rfl : form = g := by
    rw [Vocabulary.get_eq_ok_iff, Vocabulary.find?_of_mem hmem] at hg
    exact Option.some.inj hg
  refine ⟨.ofTemplate id form.name form.template fields, ?_, id, fields, .refl _⟩
  rw [find?_addBlock]
  exact if_pos rfl

/-- A form whose block has no value slots at the end had no arguments to read. -/
theorem valueSlots_eq_nil_of_built
    {attach : Workspace → BlockId → String → String → Attempt Unit}
    {commands : Workspace → BlockId → String → String → List Command} (h : Perform commands attach)
    {fields : Fields} {b : Block} (hw : w.Consistent) (hmem : form ∈ v.forms)
    (hnodup : form.template.argNames.Nodup)
    (hroom : w.Room (w.creations (constructCommands v attach commands w form fields)))
    (hbuilt : construct v attach w form fields = (.ok id, w')) (hb : w'.find? id = some b)
    (hnone : b.TakesNoValues) : form.template.valueSlots = [] := by
  obtain ⟨w₁, hcreate, hfill⟩ := construct_eq_ok.1 hbuilt
  have hcommands : constructCommands v attach commands w form fields =
      .create v form.name (form.keptFields fields) ::
        fillCommands v attach commands w₁ id form fields := by
    rw [constructCommands, hcreate]
    dsimp only
    rw [hfill, undoCommands, List.append_nil]
  have happly : w.apply (.create v form.name (form.keptFields fields)) = w₁ := by
    rw [apply, hcreate]
    rfl
  have hrun : w₁.run (fillCommands v attach commands w₁ id form fields) = w' := by
    rw [run_fillCommands h, hfill]
  rw [hcommands, creations, happly] at hroom
  obtain ⟨hw₁, hspends⟩ := hw.apply (.create v form.name (form.keptFields fields)) hroom.left
  rw [happly] at hw₁ hspends
  -- the block kept the slots that it was created with
  obtain ⟨b₁, hb₁, hframe⟩ := exists_framedBy_of_create hmem hcreate
  obtain ⟨b₂, hb₂, -, hslots⟩ := exists_of_run hw₁ (hroom.of_spends hspends)
    (hw₁.le_lastId (contains_of_find? hb₁)) (hrun ▸ hb)
  obtain rfl := Option.some.inj (hb₁.symm.trans hb₂)
  exact Block.valueSlots_eq_nil hframe hnodup hslots hnone

end Workspace

/-! ### Functions of the host -/

/-- The contract of a function of the host, which is described as one from a workspace and field
values to a new block: what it builds depends on those. The vocabulary is there to create blocks of
the forms in it, so the block is the same in any vocabulary that has these forms. Which other forms
there are may matter just for a block with value slots, since a text for such a slot is read by
whatever form takes it. A function that goes by the mere presence of a form does more than is
described. -/
def HostConstruct.GoesByFields (c : HostConstruct) : Prop :=
  ∀ ⦃v v' : Vocabulary⦄ ⦃w w' : Workspace⦄ ⦃form : Form⦄ ⦃fields : Fields⦄ ⦃id : BlockId⦄
    ⦃b : Block⦄, v.forms ⊆ v'.forms → c.run v w form fields = (.ok id, w') →
      w'.find? id = some b → b.TakesNoValues → c.run v' w form fields = (.ok id, w')

/-- The line is passed over, or it became a block without value slots. -/
def LineResult.IsPlain (w : Workspace) : LineResult → Prop
  | .ignored => True
  | .built id => ∃ b ∈ w.find? id, b.TakesNoValues
  | _ => False

instance (w : Workspace) : DecidablePred (LineResult.IsPlain w)
  | .ignored => inferInstanceAs (Decidable True)
  | .built id => inferInstanceAs (Decidable (∃ b ∈ w.find? id, b.TakesNoValues))
  | .unmatched | .failed .. => inferInstanceAs (Decidable False)

namespace Registry

open Workspace

/-- The functions of the host keep to their contract. -/
def GoesByFields (r : Registry) : Prop := ∀ f ∈ r.forms, ∀ c ∈ f.construct?, c.GoesByFields

/-- Each of the lines, read in its place, is passed over or becomes a block without value slots. -/
def ReadsPlainly (r : Registry) (o : ReadingOptions) : List String → Workspace → Prop
  | [], _ => True
  | line :: lines, w =>
    (r.readLine o w line).1.IsPlain (r.readLine o w line).2 ∧
      r.ReadsPlainly o lines (r.readLine o w line).2

instance decidableReadsPlainly (r : Registry) (o : ReadingOptions) :
    (lines : List String) → (w : Workspace) → Decidable (r.ReadsPlainly o lines w)
  | [], _ => inferInstanceAs (Decidable True)
  | line :: lines, w =>
    have := r.decidableReadsPlainly o lines (r.readLine o w line).2
    inferInstanceAs (Decidable (_ ∧ _))

variable {r r' : Registry} {f : HostForm} {w w' : Workspace} {o : ReadingOptions} {id : BlockId}

theorem forms_subset_of_register (h : r.register f = .ok r') :
    r.vocabulary.forms ⊆ r'.vocabulary.forms := by
  change r.forms.map HostForm.form ⊆ r'.forms.map HostForm.form
  rw [forms_of_register h, List.map_append]
  exact List.subset_append_left ..

theorem goesByFields_of_construct? (hhost : r.GoesByFields) {name : String} {c : HostConstruct}
    (h : r.construct? name = some c) : c.GoesByFields := by
  obtain ⟨f, hf, hc⟩ := Option.bind_eq_some_iff.1 h
  exact hhost f (List.mem_of_find?_eq_some hf) c hc

section

variable (hregister : r.register f = .ok r') (hhost : r.GoesByFields)
include hregister hhost

/-- A block without value slots is built as before. -/
theorem construct_of_register
    {attach attach' : Workspace → BlockId → String → String → Attempt Unit}
    {commands : Workspace → BlockId → String → String → List Command} (h : Perform commands attach)
    {form : Form} {fields : Fields} {b : Block} (hw : w.Consistent)
    (hmem : form ∈ r.vocabulary.forms)
    (hroom : w.Room (w.creations (r.constructCommands attach commands w form fields)))
    (hbuilt : r.construct attach w form fields = (.ok id, w')) (hb : w'.find? id = some b)
    (hnone : b.TakesNoValues) : r'.construct attach' w form fields = (.ok id, w') := by
  rw [construct] at hbuilt ⊢
  rw [constructCommands] at hroom
  rw [construct?_of_register hregister hmem]
  cases hc : r.construct? form.name with
  | some c =>
    rw [hc] at hbuilt
    exact goesByFields_of_construct? hhost hc (forms_subset_of_register hregister) hbuilt hb hnone
  | none =>
    rw [hc] at hbuilt hroom
    -- no argument was read, so nobody was asked for an expression
    refine construct_of_built (forms_subset_of_register hregister) (fun hargs => ?_) hbuilt
    obtain ⟨g, -, rfl⟩ := List.mem_map.1 hmem
    exact valueSlots_eq_nil_of_built h hw hmem (g.made.nodup_argNames hargs) hroom hbuilt hb hnone

theorem build_of_register {line : String} {form : Form} {c : Capture} {b : Block}
    (hw : w.Consistent) (hmem : form ∈ r.vocabulary.forms)
    (hroom : w.Room (w.creations (r.buildCommands w line form c)))
    (hbuilt : r.build w line form c = (.ok id, w')) (hb : w'.find? id = some b)
    (hnone : b.TakesNoValues) : r'.build w line form c = (.ok id, w') := by
  rw [build] at hbuilt ⊢
  rw [buildCommands] at hroom
  cases hread : form.readFields c with
  | error e =>
    rw [hread] at hbuilt
    cases hbuilt
  | ok fields =>
    rw [hread] at hbuilt hroom
    exact construct_of_register hregister hhost (perform_argumentCommands line.length) hw hmem hroom
      hbuilt hb hnone

/-! ### Reading -/

variable (hasks : r.vocabulary.AsksLast r'.vocabulary f.form)
include hasks

/-- A line that is passed over, or becomes a block without value slots, is read as before. -/
theorem readLine_of_register (hw : w.Consistent) {line : String}
    (hroom : w.Room (w.creations (r.lineCommands o w line)))
    (h : (r.readLine o w line).1.IsPlain (r.readLine o w line).2) :
    r'.readLine o w line = r.readLine o w line := by
  rw [lineCommands] at hroom
  rw [readLine] at h
  rw [readLine, readLine]
  generalize String.ofList (Text.trim line.toList) = line at hroom h ⊢
  cases hignores : o.ignores line with
  | true => rfl
  | false =>
    rw [hignores] at hroom h
    cases hmatch : r.vocabulary.firstMatch line with
    | none =>
      rw [hmatch] at h
      exact h.elim
    | some found =>
      obtain ⟨form, c⟩ := found
      obtain ⟨hmem, -⟩ := Vocabulary.of_firstMatch hmatch
      rw [hmatch] at hroom h
      rw [hasks.firstMatch_of_some hmatch]
      dsimp only at hroom h ⊢
      rcases hbuilt : r.build w line form c with ⟨e | id, w'⟩
      · rw [hbuilt] at h
        exact h.elim
      · rw [hbuilt] at h
        obtain ⟨b, hb, hnone⟩ := h
        rw [build_of_register hregister hhost hw hmem hroom hbuilt hb hnone]

/-- Lines that are read plainly are read as before. -/
theorem readLines_of_register (lines : List String) (hw : w.Consistent)
    (hroom : w.Room (w.creations (r.linesCommands o lines w))) (h : r.ReadsPlainly o lines w) :
    r'.readLines o lines w = r.readLines o lines w := by
  induction lines generalizing w with
  | nil => rfl
  | cons line lines ih =>
    rw [linesCommands, creations_append, run_lineCommands] at hroom
    obtain ⟨hw₁, hspends⟩ := consistent_run hw _ hroom.left
    rw [run_lineCommands] at hw₁ hspends
    have hline := readLine_of_register hregister hhost hasks hw hroom.left h.1
    rw [readLines_cons, readLines_cons, hline, ih hw₁ (hroom.of_spends hspends) h.2]

/-- A document whose lines are read plainly is read as before. -/
theorem readDocument_of_register (hw : w.Consistent) {text : String}
    (hroom : w.Room (w.creations (r.documentCommands o w text)))
    (h : r.ReadsPlainly o ((Text.documentLines text.toList).map String.ofList) w) :
    r'.readDocument o w text = r.readDocument o w text := by
  rw [documentCommands, creations_append] at hroom
  rw [readDocument, readDocument,
    readLines_of_register hregister hhost hasks _ hw hroom.left h]

end

/-- Where the host leaves all building to the library, the same holds of reading with the vocabulary
alone, and there is no contract to keep. -/
theorem readDocument_vocabulary_of_register (hregister : r.register f = .ok r')
    (hasks : r.vocabulary.AsksLast r'.vocabulary f.form)
    (hnone : ∀ g ∈ r.forms, g.construct? = none) (hf : f.construct? = none) (hw : w.Consistent)
    {text : String} (hroom : w.Room (w.creations (r.documentCommands o w text)))
    (h : r.ReadsPlainly o ((Text.documentLines text.toList).map String.ofList) w) :
    w.readDocument o r'.vocabulary text = w.readDocument o r.vocabulary text := by
  have hhost : r.GoesByFields := fun g hg c hc => nomatch (hnone g hg).symm.trans hc
  have hnone' : ∀ g ∈ r'.forms, g.construct? = none := by
    rw [forms_of_register hregister]
    exact List.forall_mem_append.2 ⟨hnone, List.forall_mem_singleton.2 hf⟩
  rw [← readDocument_eq hnone, ← readDocument_eq hnone']
  exact readDocument_of_register hregister hhost hasks hw hroom h

end Registry

end ScriptBlocks
