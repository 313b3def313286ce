import ScriptBlocks.Dialect
import ScriptBlocks.Proofs.Reading.Size

/-!
# Runs

A host changes a workspace by commands, one for each operation of the library, and a command that is
refused counts as well as one that succeeds. Whatever commands a host gives, each with forms of its
own choice, the links of the workspace are in order afterwards.

## Main definitions

* `Command`, `Command.apply` — the operations that change a workspace
* `Workspace.run` — one command after the other
* `Workspace.creations` — how many blocks were created on the way
* `Workspace.WellFormed` — the links are in order

## Main statements

* `Workspace.Consistent.apply` — each command keeps the invariant
* `Workspace.consistent_run` — and so do runs
* `Workspace.wellFormed_run` — the links are in order after any run
-/

namespace ScriptBlocks

/-- An operation that changes a workspace. Those that look up forms come with the vocabulary. Functions
by which a host builds the blocks of its forms can do no more than give commands, so that reading with
them is a run as well (`Registry.run_documentCommands`). -/
inductive Command where
  | create (v : Vocabulary) (form : String) (fields : Fields)
  | createShadow (v : Vocabulary) (form : String) (fields : Fields)
  | setField (id : BlockId) (name : String) (value : Value)
  | setEnabled (id : BlockId) (enabled : Bool)
  | addValueSlot (id : BlockId) (name : String) (check : Option Capability)
  | addStatementSlot (id : BlockId) (name : String)
  | addElseIf (id : BlockId)
  | addElse (id : BlockId)
  | connectStatement (parent : BlockId) (slot : String) (child : BlockId)
  | connectValue (parent : BlockId) (slot : String) (child : BlockId)
  | append (head id : BlockId)
  | disconnect (id : BlockId)
  | remove (id : BlockId)
  | declareVariable (key name : String)
  | readDocument (o : ReadingOptions) (v : Vocabulary) (text : String)
  | readLine (o : ReadingOptions) (v : Vocabulary) (line : String)
  | readAs (v : Vocabulary) (text form : String)

namespace Workspace

/-- What is left by an operation that changes nothing when it is refused. -/
def orUnchanged (w : Workspace) : Except Error Workspace → Workspace
  | .ok w' => w'
  | .error _ => w

/-- The workspace after a command. -/
def apply (w : Workspace) : Command → Workspace
  | .create v form fields => w.orUnchanged ((w.create v form fields).map Prod.snd)
  | .createShadow v form fields => w.orUnchanged ((w.createShadow v form fields).map Prod.snd)
  | .setField id name value => w.orUnchanged (w.setField id name value)
  | .setEnabled id enabled => w.orUnchanged (w.setEnabled id enabled)
  | .addValueSlot id name check => w.orUnchanged (w.addValueSlot id name check)
  | .addStatementSlot id name => w.orUnchanged (w.addStatementSlot id name)
  | .addElseIf id => w.orUnchanged ((w.addElseIf id).map Prod.snd)
  | .addElse id => w.orUnchanged (w.addElse id)
  | .connectStatement parent slot child => w.orUnchanged (w.connectStatement parent slot child)
  | .connectValue parent slot child => (w.connectValue parent slot child).2
  | .append head id => (w.append head id).2
  | .disconnect id => w.orUnchanged (w.disconnect id)
  | .remove id => w.orUnchanged ((w.remove id).map Prod.snd)
  | .declareVariable key name => w.declareVariable key name
  | .readDocument o v text => (w.readDocument o v text).2
  | .readLine o v line => (w.readLine o v line).2
  | .readAs v text form => (w.readAs v text form).2

/-- The workspace after commands, one after the other. -/
def run (w : Workspace) (commands : List Command) : Workspace := commands.foldl apply w

/-- How many blocks a command creates, those that it discards again included. -/
def creationsOf (w : Workspace) : Command → Nat
  | .create v form _ | .createShadow v form _ => formCreations v form
  | .readDocument o v text => readDocumentCreations o v w text
  | .readLine o v line => readLineCreations o v w line
  | .readAs v text form => readAsCreations v w text form
  | _ => 0

/-- How many blocks a run creates. -/
def creations (w : Workspace) : List Command → Nat
  | [] => 0
  | command :: commands => w.creationsOf command + (w.apply command).creations commands

/-- The links of a workspace are in order: the two ends of each agree, none runs in a circle, and
every value slot holds an expression of a capability that it takes. -/
structure WellFormed (w : Workspace) : Prop where
  /-- The order of creation lists the blocks. -/
  mem_order {id : BlockId} : id ∈ w.order ↔ id ∈ w.blocks.keys
  sorted : w.order.Pairwise (· < ·)
  le_lastId {id : BlockId} : id ∈ w.order → id ≤ w.lastId
  id_eq {id : BlockId} {b : Block} : w.find? id = some b → b.id = id
  /-- A block names as its owner just the block that has exactly one link to it. -/
  parent_iff {id p : BlockId} {b : Block} : w.find? id = some b →
    (b.parent = some p ↔ ∃ owner, w.find? p = some owner ∧ owner.children.count id = 1)
  /-- No other block has a link to it. -/
  eq_owner {id p q : BlockId} {b other : Block} : w.find? id = some b → b.parent = some p →
    w.find? q = some other → id ∈ other.children → q = p
  contains_child {id p : BlockId} {owner : Block} : w.find? p = some owner →
    id ∈ owner.children → w.contains id = true
  /-- The way up from owner to owner never comes back. -/
  acyclic {id : BlockId} : ¬ w.Above id id
  compatible {id p : BlockId} {owner : Block} {slot : String} {check : Option Capability} :
    w.find? p = some owner → owner.slots.find? slot = some (.value check (some id)) →
      ∃ child output, w.find? id = some child ∧ child.shape = .expression output ∧
        Capability.compatible check output = true
  hasPrevious {id p : BlockId} {owner : Block} {slot : String} :
    w.find? p = some owner → owner.slots.find? slot = some (.statement (some id)) →
      ∃ child, w.find? id = some child ∧ child.shape.hasPrevious = true
  hasNext {id p : BlockId} {owner : Block} : w.find? p = some owner → owner.next = some id →
    owner.shape.hasNext = true ∧ ∃ child, w.find? id = some child ∧ child.shape.hasPrevious = true

variable {w w' : Workspace}

/-! ### One command -/

theorem Consistent.orUnchanged (hw : w.Consistent) {x : Except Error Workspace}
    (h : ∀ w', x = .ok w' → w'.Consistent ∧ w.Spends w' 0) :
    (w.orUnchanged x).Consistent ∧ w.Spends (w.orUnchanged x) 0 := by
  cases x with
  | error => exact ⟨hw, .zero w⟩
  | ok w' => exact h w' rfl

theorem map_snd_eq_ok {α : Type} {x : Except Error (α × Workspace)}
    (h : x.map Prod.snd = .ok w') : ∃ a, x = .ok (a, w') := by
  cases x with
  | error => exact nomatch h
  | ok r => exact ⟨r.1, congrArg _ (Prod.ext rfl (Except.ok.inj h))⟩

/-- A command that creates blocks keeps the invariant and takes an id for each of them. -/
theorem create_spec {v : Vocabulary} {form : String} (fields : Fields) (hw : w.Consistent)
    (hroom : w.Room (formCreations v form)) :
    (w.orUnchanged ((w.create v form fields).map Prod.snd)).Consistent ∧
      w.Spends (w.orUnchanged ((w.create v form fields).map Prod.snd)) (formCreations v form) := by
  cases hcreate : w.create v form fields with
  | error e =>
    rw [formCreations_of_create_eq_error hcreate]
    exact ⟨hw, .zero w⟩
  | ok r =>
    obtain ⟨f, hf, hone⟩ := get_of_create_eq_ok hcreate
    rw [hone] at hroom ⊢
    obtain ⟨hbuilds, hspends, -⟩ := builds_create hw hf hroom hcreate
    exact ⟨hbuilds.consistent, hspends⟩

theorem createShadow_spec {v : Vocabulary} {form : String} (fields : Fields) (hw : w.Consistent)
    (hroom : w.Room (formCreations v form)) :
    (w.orUnchanged ((w.createShadow v form fields).map Prod.snd)).Consistent ∧
      w.Spends (w.orUnchanged ((w.createShadow v form fields).map Prod.snd))
        (formCreations v form) := by
  obtain ⟨hconsistent, hspends⟩ := create_spec fields hw hroom
  rw [createShadow]
  cases hcreate : w.create v form fields with
  | error e =>
    rw [hcreate] at hspends
    exact ⟨hw, hspends⟩
  | ok r =>
    rw [hcreate] at hconsistent hspends
    exact ⟨hconsistent.modify (inert_shadow true), hspends⟩

/-! ### Commands that give out no id -/

theorem spends_edit {id : BlockId} {f : Block → Block} (h : w.edit id f = .ok w') :
    w.Spends w' 0 := by
  obtain ⟨-, rfl⟩ := edit_eq_ok.1 h
  rfl

theorem spends_disconnect {id : BlockId} (h : w.disconnect id = .ok w') : w.Spends w' 0 := by
  simp only [disconnect, bind_eq_ok] at h
  obtain ⟨b, -, h⟩ := h
  split at h
  · rw [Except.ok.inj h]
    rfl
  · simp only [bind_eq_ok, pure_eq_ok] at h
    obtain ⟨w₁, hedit, rfl⟩ := h
    have hspends : w.Spends w₁ 0 := spends_edit hedit
    exact hspends

theorem spends_remove {id : BlockId} {n : Nat} (h : w.remove id = .ok (n, w')) :
    w.Spends w' 0 := by
  simp only [remove, bind_eq_ok, pure_eq_ok] at h
  obtain ⟨w₁, hdisconnect, heq⟩ := h
  have hspends : w.Spends w₁ 0 := spends_disconnect hdisconnect
  rw [← (Prod.mk.inj heq).2]
  exact hspends

theorem spends_addElseIf {id : BlockId} {n : Nat} (h : w.addElseIf id = .ok (n, w')) :
    w.Spends w' 0 := by
  simp only [addElseIf, bind_eq_ok, pure_eq_ok, Prod.mk.injEq] at h
  obtain ⟨b, -, w₁, hvalue, w₂, hstatement, -, rfl⟩ := h
  exact (spends_edit hvalue).trans (spends_edit hstatement)

theorem spends_connectStatement {p c : BlockId} {slot : String}
    (h : w.connectStatement p slot c = .ok w') : w.Spends w' 0 := by
  simp only [connectStatement, bind_eq_ok, pure_eq_ok] at h
  obtain ⟨_, -, rfl⟩ := h
  rfl

theorem spends_plug (w : Workspace) (p : BlockId) (slot : String) (c : BlockId) :
    w.Spends (w.plug p slot c).2 0 := by
  rw [plug]
  split
  · dsimp only
    split
    · rfl
    · rfl
  · rfl

theorem spends_connectValue (w : Workspace) (p : BlockId) (slot : String) (c : BlockId) :
    w.Spends (w.connectValue p slot c).2 0 := by
  rw [connectValue]
  split
  · rfl
  · exact w.spends_plug p slot c
  · split
    · rfl
    · next hremove => exact (spends_remove hremove).trans (spends_plug ..)

theorem spends_append (w : Workspace) (head id : BlockId) :
    w.Spends (w.append head id).2 0 := by
  rw [append]
  split
  · next h =>
    simp only [append?, bind_eq_ok, pure_eq_ok] at h
    obtain ⟨_, -, rfl⟩ := h
    rfl
  · rfl

/-! ### Every command -/

/-- A command keeps the invariant, succeed or fail, and takes an id for each block it creates. -/
theorem Consistent.apply (hw : w.Consistent) (command : Command)
    (hroom : w.Room (w.creationsOf command)) :
    (w.apply command).Consistent ∧ w.Spends (w.apply command) (w.creationsOf command) := by
  cases command with
  | create v form fields => exact create_spec fields hw hroom
  | createShadow v form fields => exact createShadow_spec fields hw hroom
  | setField => exact hw.orUnchanged fun _ h => ⟨hw.setField h, spends_edit h⟩
  | setEnabled => exact hw.orUnchanged fun _ h => ⟨hw.setEnabled h, spends_edit h⟩
  | addValueSlot => exact hw.orUnchanged fun _ h => ⟨hw.addSlot rfl h, spends_edit h⟩
  | addStatementSlot => exact hw.orUnchanged fun _ h => ⟨hw.addSlot rfl h, spends_edit h⟩
  | addElseIf =>
    refine hw.orUnchanged fun _ h => ?_
    obtain ⟨n, hn⟩ := map_snd_eq_ok h
    exact ⟨hw.addElseIf hn, spends_addElseIf hn⟩
  | addElse => exact hw.orUnchanged fun _ h => ⟨hw.addSlot rfl h, spends_edit h⟩
  | connectStatement =>
    exact hw.orUnchanged fun _ h => ⟨hw.connectStatement h, spends_connectStatement h⟩
  | connectValue => exact ⟨hw.connectValue .., w.spends_connectValue ..⟩
  | append => exact ⟨hw.append .., w.spends_append ..⟩
  | disconnect =>
    exact hw.orUnchanged fun _ h => ⟨(hw.disconnect h).1, spends_disconnect h⟩
  | remove =>
    refine hw.orUnchanged fun _ h => ?_
    obtain ⟨n, hn⟩ := map_snd_eq_ok h
    exact ⟨hw.remove hn, spends_remove hn⟩
  | declareVariable => exact ⟨hw.declareVariable .., .zero w⟩
  | readDocument o v text =>
    obtain ⟨hplants, -, hspends⟩ := readDocument_spec (o := o) (v := v) hw text hroom
    exact ⟨hplants.consistent, hspends⟩
  | readLine o v line =>
    obtain ⟨hplants, -, hspends⟩ := readLine_spec (o := o) (v := v) hw line hroom
    exact ⟨hplants.consistent, hspends⟩
  | readAs v text form =>
    obtain ⟨hplants, hspends⟩ := readAs_spec (v := v) hw text form hroom
    exact ⟨hplants.consistent, hspends⟩

/-! ### Runs -/

/-- A run keeps the invariant as long as its ids last. -/
theorem consistent_run (hw : w.Consistent) (commands : List Command)
    (hroom : w.Room (w.creations commands)) :
    (w.run commands).Consistent ∧ w.Spends (w.run commands) (w.creations commands) := by
  induction commands generalizing w with
  | nil => exact ⟨hw, .zero w⟩
  | cons command commands ih =>
    rw [creations] at hroom ⊢
    obtain ⟨hw₁, hspends⟩ := hw.apply command hroom.left
    obtain ⟨hw', hspends'⟩ := ih hw₁ (hroom.of_spends hspends)
    exact ⟨hw', hspends.trans hspends'⟩

theorem creations_append (w : Workspace) (commands commands' : List Command) :
    w.creations (commands ++ commands') =
      w.creations commands + (w.run commands).creations commands' := by
  induction commands generalizing w with
  | nil => exact (Nat.zero_add _).symm
  | cons command commands ih =>
    rw [List.cons_append, creations, ih, creations, Nat.add_assoc]
    rfl

theorem room_empty {n : Nat} (h : n < wordLimit) : (∅ : Workspace).Room n := by
  rw [Room, show (∅ : Workspace).lastId = 0 from rfl, Nat.zero_add]
  exact h

/-- After a run that leaves so many ids, the links are in order. -/
theorem ready_run {commands : List Command} {n : Nat}
    (h : (∅ : Workspace).creations commands + n < wordLimit) :
    ((∅ : Workspace).run commands).Consistent ∧ ((∅ : Workspace).run commands).Room n := by
  obtain ⟨hw, hspends⟩ := consistent_run consistent_empty commands (room_empty h).left
  exact ⟨hw, (room_empty h).of_spends hspends⟩

/-- After a run that leaves ids for one more command, the command finds the links in order and the
ids it needs. -/
theorem ready_of_creations {commands : List Command} {command : Command}
    (h : (∅ : Workspace).creations (commands ++ [command]) < wordLimit) :
    ((∅ : Workspace).run commands).Consistent ∧
      ((∅ : Workspace).run commands).Room (((∅ : Workspace).run commands).creationsOf command) := by
  rw [creations_append] at h
  obtain ⟨hw, hroom⟩ := ready_run h
  exact ⟨hw, hroom.left⟩

/-- A run that ends in the reading of a document has ids enough if the lines are short. -/
theorem creations_readDocument_lt {commands : List Command} {o : ReadingOptions} {v : Vocabulary}
    {text : String} {n : Nat} (hv : v.TakesAtMost n) (hn : 0 < n)
    (h : (∅ : Workspace).creations commands +
      ((Text.documentLines text.toList).map fun line => (n + 1) ^ (line.length + 1)).sum < wordLimit) :
    (∅ : Workspace).creations (commands ++ [.readDocument o v text]) < wordLimit := by
  rw [creations_append]
  exact (Nat.add_le_add_left (readDocumentCreations_le hv hn o _ text) _).trans_lt h

/-- A run that ends in the reading of a text with a given form has ids enough if the text is
short. -/
theorem creations_readAs_lt {commands : List Command} {v : Vocabulary} {text form : String} {n : Nat}
    (hv : v.TakesAtMost n) (hn : 0 < n)
    (h : (∅ : Workspace).creations commands + (n + 1) ^ (text.length + 1) < wordLimit) :
    (∅ : Workspace).creations (commands ++ [.readAs v text form]) < wordLimit := by
  rw [creations_append]
  exact (Nat.add_le_add_left (readAsCreations_le hv hn _ text form) _).trans_lt h

/-- What the invariant means for the links and the slots of each block. -/
theorem Consistent.wellFormed (hw : w.Consistent) : w.WellFormed where
  mem_order := hw.mem_order.trans OrderedMap.contains_iff
  sorted := hw.sorted
  le_lastId h := hw.le_lastId (hw.mem_order.1 h)
  id_eq := hw.id_eq
  parent_iff {id p b} hb := by
    constructor
    · intro hp
      obtain ⟨owner, howner, hmem⟩ := hw.mem_children_of_parent hb hp
      refine ⟨owner, howner, ?_⟩
      exact (hw.nodup_children_of_find? howner).count.trans (if_pos hmem)
    · rintro ⟨owner, howner, hcount⟩
      have hmem : id ∈ owner.children := List.one_le_count_iff.1 (Nat.le_of_eq hcount.symm)
      rw [← parent?_of_find? hb]
      exact hw.parent?_of_mem_children howner hmem
  eq_owner {id p q b other} hb hp hother hmem := by
    have hq := hw.parent?_of_mem_children hother hmem
    rw [parent?_of_find? hb, hp] at hq
    exact (Option.some.inj hq).symm
  contains_child howner hmem := contains_of_parent? (hw.parent?_of_mem_children howner hmem)
  acyclic := hw.acyclic
  compatible {id p owner slot check} howner hslot := by
    obtain ⟨child, hc, -⟩ := hw.find?_of_mem_children howner (Block.mem_children_of_slot hslot rfl)
    have hadmits := (hw.admits howner hc).1 _ (OrderedMap.mem_values_of_find? hslot) rfl
    cases hshape : child.shape with
    | statement =>
      rw [hshape] at hadmits
      exact nomatch hadmits
    | expression output =>
      rw [hshape] at hadmits
      exact ⟨child, output, hc, hshape, hadmits⟩
  hasPrevious {id p owner slot} howner hslot := by
    obtain ⟨child, hc, -⟩ := hw.find?_of_mem_children howner (Block.mem_children_of_slot hslot rfl)
    exact ⟨child, hc, (hw.admits howner hc).1 _ (OrderedMap.mem_values_of_find? hslot) rfl⟩
  hasNext {id p owner} howner hnext := by
    have hmem : id ∈ owner.children := by
      rw [Block.children, hnext]
      exact List.mem_append_right _ (List.mem_singleton_self id)
    obtain ⟨child, hc, -⟩ := hw.find?_of_mem_children howner hmem
    obtain ⟨hnext', hprevious⟩ := (hw.admits howner hc).2 hnext
    exact ⟨hnext', child, hc, hprevious⟩

/-- Whatever commands are given to a new workspace, its links are in order, as long as not all
64-bit ids have been given out. -/
theorem wellFormed_run (commands : List Command)
    (hroom : (∅ : Workspace).creations commands < wordLimit) :
    ((∅ : Workspace).run commands).WellFormed := by
  obtain ⟨hconsistent, -⟩ := consistent_run consistent_empty commands (room_empty hroom)
  exact hconsistent.wellFormed

/-- An expression takes the place of a default literal, a line is read that fails when most of its
blocks are there, and a statement is removed with what it owns. -/
theorem wellFormed_run_of_session :
    let commands : List Command :=
      [.create Dialect.vocabulary "variables_set" ∅,
        .createShadow Dialect.vocabulary "math_number" ∅, .connectValue 1 "VALUE" 2,
        .create Dialect.vocabulary "variables_get" ∅, .connectValue 1 "VALUE" 3,
        .readDocument {} Dialect.vocabulary "x = 1 + (a < b < c)", .remove 1]
    (∅ : Workspace).creations commands < wordLimit ∧ ((∅ : Workspace).run commands).WellFormed := by
  intro commands
  have hcommands : commands = commands.take 5 ++
      [.readDocument {} Dialect.vocabulary "x = 1 + (a < b < c)"] ++ [.remove 1] := rfl
  have hroom : (∅ : Workspace).creations commands < wordLimit := by
    have hremove (w : Workspace) : w.creations [.remove 1] = 0 := rfl
    rw [hcommands, creations_append, hremove, Nat.add_zero]
    exact creations_readDocument_lt Dialect.takesAtMost_vocabulary Nat.two_pos (by decide)
  exact ⟨hroom, wellFormed_run commands hroom⟩

end Workspace

end ScriptBlocks
