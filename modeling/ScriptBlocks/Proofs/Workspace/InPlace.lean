import ScriptBlocks.Proofs.Run

/-!
# Operations write by write

A host that keeps one workspace and changes it in place writes one entry after the other. An
operation that comes upon an error on its way stops there, and what it has written until then stays
written. Here every operation is taken apart into its single writes. It fails on the way only where
it is refused before its first write, so a refused operation leaves the workspace as it was.

The one operation for which this takes the invariant is the connection to a value slot: it removes
a default literal with all that it owns before it looks up the blocks that it links.

## Main definitions

* `Procedure` — single writes, one after the other, up to the first that fails
* `Workspace.InPlace` — the operations as procedures
* `Command.procedure?` — the operation that a command stands for
* `Workspace.Refuses` — the answer of the operation to a command is an error, or that no link was made

## Main statements

* `Workspace.InPlace.on_connectValue`, … — done write by write, an operation gives the same answer
  and leaves the same workspace
* `Workspace.Consistent.apply_of_refuses` — a refused command changes nothing
* `Workspace.unchanged_of_refuses` — the same for whatever workspace a host has made
-/

namespace ScriptBlocks

/-- Steps that look at a workspace or write to it, one after the other. After a step that fails no
other is taken, and what was written before stays. -/
abbrev Procedure (α : Type) := ExceptT Error (StateM Workspace) α

namespace Procedure

variable {α β : Type}

/-- What a procedure answers, and the workspace that it leaves. -/
def on (p : Procedure α) (w : Workspace) : Attempt α := p.run.run w

/-- A question to the workspace. -/
def ask (question : Workspace → Except Error α) : Procedure α := fun w => (question w, w)

/-- A write that needs no block to be there. -/
def put (f : Workspace → Workspace) : Procedure Unit := fun w => (.ok (), f w)

/-- A write to a block, which fails if there is no such block. -/
def write (id : BlockId) (f : Block → Block) : Procedure Unit := fun w =>
  if w.contains id then (.ok (), w.modify id f) else (.error (.unknownBlock id), w)

@[simp] theorem on_pure (a : α) (w : Workspace) : (pure a : Procedure α).on w = (.ok a, w) := rfl

@[simp] theorem on_ask (question : Workspace → Except Error α) (w : Workspace) :
    (ask question).on w = (question w, w) := rfl

@[simp] theorem on_put (f : Workspace → Workspace) (w : Workspace) :
    (put f).on w = (.ok (), f w) := rfl

theorem on_bind (p : Procedure α) (f : α → Procedure β) (w : Workspace) :
    (p >>= f).on w = match p.on w with
      | (.ok a, w') => (f a).on w'
      | (.error e, w') => (.error e, w') := by
  change (match p.on w with
    | (x, w') => ExceptT.bindCont f x w' : Attempt β) = _
  rcases p.on w with ⟨x | x, w'⟩ <;> rfl

theorem on_bind_of_ok {p : Procedure α} {w w' : Workspace} {a : α} (h : p.on w = (.ok a, w'))
    (f : α → Procedure β) : (p >>= f).on w = (f a).on w' := by
  rw [on_bind, h]

theorem on_bind_of_error {p : Procedure α} {w w' : Workspace} {e : Error}
    (h : p.on w = (.error e, w')) (f : α → Procedure β) :
    (p >>= f).on w = (.error e, w') := by
  rw [on_bind, h]

section

variable {w : Workspace} {question : Workspace → Except Error α}

theorem on_ask_bind_of_ok {a : α} (h : question w = .ok a) (f : α → Procedure β) :
    (ask question >>= f).on w = (f a).on w :=
  on_bind_of_ok (congrArg (·, w) h) f

theorem on_ask_bind_of_error {e : Error} (h : question w = .error e) (f : α → Procedure β) :
    (ask question >>= f).on w = (.error e, w) :=
  on_bind_of_error (congrArg (·, w) h) f

end

theorem on_write_of_contains {w : Workspace} {id : BlockId} (h : w.contains id = true)
    (f : Block → Block) : (write id f).on w = (.ok (), w.modify id f) :=
  if_pos h

theorem on_write_of_not_contains {w : Workspace} {id : BlockId} (h : ¬ w.contains id = true)
    (f : Block → Block) : (write id f).on w = (.error (.unknownBlock id), w) :=
  if_neg h

end Procedure

namespace Workspace

/-- What is answered and left by an operation that is carried out as a whole or not at all. -/
def wholly {α : Type} (w : Workspace) : Except Error (α × Workspace) → Attempt α
  | .ok (a, w') => (.ok a, w')
  | .error e => (.error e, w)

namespace InPlace

open Procedure Dialect

/-- The id is given out before the block is entered under it. -/
def create (v : Vocabulary) (form : String) (fields : Fields) : Procedure BlockId := do
  let f ← ask fun _ => v.get form
  put fun w => { w with lastId := succId w.lastId }
  let id ← ask fun w => .ok w.lastId
  put fun w => { w with blocks := w.blocks.insert id (.ofTemplate id form f.template fields) }
  put fun w => { w with order := w.order ++ [id] }
  return id

def createShadow (v : Vocabulary) (form : String) (fields : Fields) : Procedure BlockId := do
  let id ← create v form fields
  write id fun b => { b with shadow := true }
  return id

def setField (id : BlockId) (name : String) (value : Value) : Procedure Unit :=
  write id fun b => { b with fields := b.fields.insert name value }

def setEnabled (id : BlockId) (enabled : Bool) : Procedure Unit :=
  write id fun b => { b with enabled := enabled }

def addSlot (id : BlockId) (name : String) (slot : Slot) : Procedure Unit :=
  write id fun b => { b with slots := b.slots.insertNew name slot }

def addElseIf (id : BlockId) : Procedure Nat := do
  let b ← ask (get · id)
  let n := freeArm b b.slots.size 1
  addSlot id (conditionSlot n) (.value (some .boolean) none)
  addSlot id (bodySlot n) (.statement none)
  return n

/-- Enters a block in a slot, and the owner of the slot in the block. -/
def plug (parent : BlockId) (slot : String) (child : BlockId) : Procedure Unit := do
  write parent fun b => { b with slots := b.slots.modify slot (Slot.hold (some child)) }
  write child fun b => { b with parent := some parent }

def connectStatement (parent : BlockId) (slot : String) (child : BlockId) : Procedure Unit := do
  ask (admitStatement · parent slot child)
  plug parent slot child

def append (head id : BlockId) : Procedure Unit := do
  let last ← ask (admitNext · head id)
  write last fun b => { b with next := some id }
  write id fun b => { b with parent := some last }

def disconnect (id : BlockId) : Procedure Unit := do
  match (← ask (get · id)).parent with
  | none => return
  | some parent =>
    write parent fun b => b.release id
    write id fun b => { b with parent := none }

def remove (id : BlockId) : Procedure Nat := do
  disconnect id
  let doomed ← ask fun w => .ok (w.descendants id)
  put fun w => { w with blocks := w.blocks.filterKeys fun id => !doomed.contains id }
  put fun w => { w with order := w.order.filter fun id => !doomed.contains id }
  return doomed.length

/-- Removes the default literal that is to give way, if there is one. -/
def makeRoom : Option BlockId → Procedure Unit
  | none => return
  | some shadow => do let _ ← remove shadow

def connectValue (parent : BlockId) (slot : String) (child : BlockId) : Procedure Unit := do
  let shadow ← ask (admitValue · parent slot child)
  makeRoom shadow
  plug parent slot child

variable (w : Workspace)

/-! ### Operations that are refused before their first write -/

theorem on_write (id : BlockId) (f : Block → Block) :
    (write id f).on w = w.wholly ((w.edit id f).map ((), ·)) := by
  by_cases h : w.contains id = true
  · rw [on_write_of_contains h, edit, if_pos h]
    rfl
  · rw [on_write_of_not_contains h, edit, if_neg h]
    rfl

theorem on_create (v : Vocabulary) (form : String) (fields : Fields) :
    (create v form fields).on w = w.wholly (w.create v form fields) := by
  rw [create, Workspace.create]
  cases h : v.get form with
  | error e => rfl
  | ok f => rfl

theorem on_createShadow (v : Vocabulary) (form : String) (fields : Fields) :
    (createShadow v form fields).on w = w.wholly (w.createShadow v form fields) := by
  have hcreate := on_create w v form fields
  rw [createShadow, Workspace.createShadow]
  cases h : w.create v form fields with
  | error e =>
    rw [h] at hcreate
    exact on_bind_of_error hcreate _
  | ok r =>
    rw [h] at hcreate
    -- the new block is there to be marked
    obtain ⟨f, -, hid, hw⟩ := create_eq_ok.1 h
    have hnew : r.2.contains r.1 = true := by
      rw [hw, contains_addBlock, hid]
      exact .inl rfl
    rw [on_bind_of_ok hcreate, on_bind_of_ok (on_write_of_contains hnew _)]
    rfl

theorem on_addElseIf (id : BlockId) : (addElseIf id).on w = w.wholly (w.addElseIf id) := by
  rw [addElseIf, Workspace.addElseIf]
  cases hb : w.get id with
  | error e => exact on_ask_bind_of_error hb _
  | ok b =>
    have hid := contains_of_find? (get_eq_ok_iff.1 hb)
    have hslot (w : Workspace) (h : w.contains id = true) (name : String) (slot : Slot) :
        w.addSlot id name slot = .ok (w.modify id fun b => { b with slots := b.slots.insertNew name slot }) :=
      if_pos h
    have hid' (f : Block → Block) : (w.modify id f).contains id = true :=
      (contains_modify ..).trans hid
    rw [on_ask_bind_of_ok hb]
    dsimp only
    rw [addSlot, on_bind_of_ok (on_write_of_contains hid _), addSlot,
      on_bind_of_ok (on_write_of_contains (hid' _) _)]
    simp only [bind, Except.bind, addValueSlot, addStatementSlot, hslot w hid, hslot _ (hid' _)]
    rfl

/-- Both blocks are looked up when they are written to. -/
theorem on_plug (parent : BlockId) (slot : String) (child : BlockId) :
    (plug parent slot child).on w = w.plug parent slot child := by
  rw [plug, Workspace.plug]
  by_cases hparent : w.contains parent = true
  · rw [on_bind_of_ok (on_write_of_contains hparent _), if_pos hparent]
    rfl
  · rw [on_bind_of_error (on_write_of_not_contains hparent _), if_neg hparent]

theorem on_connectStatement (parent : BlockId) (slot : String) (child : BlockId) :
    (connectStatement parent slot child).on w =
      w.wholly ((w.connectStatement parent slot child).map ((), ·)) := by
  rw [connectStatement, Workspace.connectStatement]
  cases hadmit : w.admitStatement parent slot child with
  | error e => exact on_ask_bind_of_error hadmit _
  | ok u =>
    obtain ⟨b, child', hb, -, hc, -⟩ := admitStatement_eq_ok.1 hadmit
    rw [on_ask_bind_of_ok hadmit, on_plug, plug_eq hb hc]
    rfl

theorem on_append (head id : BlockId) :
    (append head id).on w = w.wholly ((w.append? head id).map ((), ·)) := by
  rw [append, Workspace.append?]
  cases hadmit : w.admitNext head id with
  | error e => exact on_ask_bind_of_error hadmit _
  | ok last =>
    obtain ⟨b, child, -, hb, -, hc, -⟩ := admitNext_eq_ok.1 hadmit
    rw [on_ask_bind_of_ok hadmit, on_bind_of_ok (on_write_of_contains (contains_of_find? hb) _),
      on_write_of_contains ((contains_modify ..).trans (contains_of_find? hc))]
    rfl

theorem on_disconnect (id : BlockId) :
    (disconnect id).on w = w.wholly ((w.disconnect id).map ((), ·)) := by
  rw [disconnect, Workspace.disconnect]
  cases hb : w.get id with
  | error e => exact on_ask_bind_of_error hb _
  | ok b =>
    rw [on_ask_bind_of_ok hb]
    cases howner : b.parent with
    | none =>
      simp only [bind, Except.bind, howner]
      rfl
    | some parent =>
      simp only [bind, Except.bind, howner]
      by_cases hparent : w.contains parent = true
      · have hid := (contains_modify w parent id (Block.release · id)).trans
          (contains_of_find? (get_eq_ok_iff.1 hb))
        rw [edit, if_pos hparent]
        exact (on_bind_of_ok (on_write_of_contains hparent _) _).trans (on_write_of_contains hid _)
      · rw [edit, if_neg hparent]
        exact on_bind_of_error (on_write_of_not_contains hparent _) _

theorem on_remove (id : BlockId) : (remove id).on w = w.wholly (w.remove id) := by
  have hdisconnect := on_disconnect w id
  rw [remove, Workspace.remove]
  cases h : w.disconnect id with
  | error e =>
    rw [h] at hdisconnect
    exact on_bind_of_error hdisconnect _
  | ok w' =>
    rw [h] at hdisconnect
    exact on_bind_of_ok hdisconnect _

/-- The removal of a default literal stays when the link is not made after it. -/
theorem on_connectValue (parent : BlockId) (slot : String) (child : BlockId) :
    (connectValue parent slot child).on w = w.connectValue parent slot child := by
  rw [connectValue, Workspace.connectValue]
  cases hadmit : w.admitValue parent slot child with
  | error e => exact on_ask_bind_of_error hadmit _
  | ok r =>
    rw [on_ask_bind_of_ok hadmit]
    cases r with
    | none => exact (on_bind_of_ok (on_pure () w) _).trans (on_plug ..)
    | some shadow =>
      have hremove := on_remove w shadow
      cases h : w.remove shadow with
      | error e =>
        rw [h] at hremove
        rw [makeRoom, on_bind_of_error (on_bind_of_error hremove _)]
        dsimp only
        rw [h]
      | ok r =>
        rw [h] at hremove
        rw [makeRoom, on_bind_of_ok (on_bind_of_ok hremove _), on_plug]
        dsimp only
        rw [h]

end InPlace

/-- The answer to the command is an error, or that no link was made. -/
def Refuses (w : Workspace) : Command → Prop
  | .create v form fields => ∃ e, w.create v form fields = .error e
  | .createShadow v form fields => ∃ e, w.createShadow v form fields = .error e
  | .setField id name value => ∃ e, w.setField id name value = .error e
  | .setEnabled id enabled => ∃ e, w.setEnabled id enabled = .error e
  | .addValueSlot id name check => ∃ e, w.addValueSlot id name check = .error e
  | .addStatementSlot id name => ∃ e, w.addStatementSlot id name = .error e
  | .addElseIf id => ∃ e, w.addElseIf id = .error e
  | .addElse id => ∃ e, w.addElse id = .error e
  | .connectStatement parent slot child => ∃ e, w.connectStatement parent slot child = .error e
  | .connectValue parent slot child => ∃ e, (w.connectValue parent slot child).1 = .error e
  | .append head id => (w.append head id).1 = false
  | .disconnect id => ∃ e, w.disconnect id = .error e
  | .remove id => ∃ e, w.remove id = .error e
  | .declareVariable .. | .readDocument .. | .readLine .. | .readAs .. => False

end Workspace

open Workspace in
/-- The operation that a command stands for. To read is not one operation but a row of them. -/
def Command.procedure? : Command → Option (Procedure Unit)
  | .create v form fields => some do let _ ← InPlace.create v form fields
  | .createShadow v form fields => some do let _ ← InPlace.createShadow v form fields
  | .setField id name value => some (InPlace.setField id name value)
  | .setEnabled id enabled => some (InPlace.setEnabled id enabled)
  | .addValueSlot id name check => some (InPlace.addSlot id name (.value check none))
  | .addStatementSlot id name => some (InPlace.addSlot id name (.statement none))
  | .addElseIf id => some do let _ ← InPlace.addElseIf id
  | .addElse id => some (InPlace.addSlot id Dialect.elseSlot (.statement none))
  | .connectStatement parent slot child => some (InPlace.connectStatement parent slot child)
  | .connectValue parent slot child => some (InPlace.connectValue parent slot child)
  | .append head id => some (InPlace.append head id)
  | .disconnect id => some (InPlace.disconnect id)
  | .remove id => some do let _ ← InPlace.remove id
  | .declareVariable key name => some (.put (·.declareVariable key name))
  | .readDocument .. | .readLine .. | .readAs .. => none

namespace Workspace

variable {w : Workspace} {command : Command}

/-! ### Commands -/

/-- The workspace is left by the whole operation, and the procedure fails just if the operation
does. -/
theorem on_of_wholly {α β : Type} {p : Procedure α} {x : Except Error (β × Workspace)} {f : β → α}
    (h : p.on w = w.wholly (x.map (Prod.map f id))) :
    (p.on w).2 = w.orUnchanged (x.map Prod.snd) ∧
      ((∃ e, (p.on w).1 = .error e) ↔ ∃ e, x = .error e) := by
  rw [h]
  cases x with
  | error e => exact ⟨rfl, iff_of_true ⟨e, rfl⟩ ⟨e, rfl⟩⟩
  | ok r => exact ⟨rfl, iff_of_false nofun nofun⟩

theorem on_discard {α : Type} {p : Procedure α} {x : Except Error (α × Workspace)}
    (h : p.on w = w.wholly x) :
    (do let _ ← p : Procedure Unit).on w = w.wholly (x.map (Prod.map (fun _ => ()) id)) := by
  cases x with
  | error e => exact Procedure.on_bind_of_error h _
  | ok r => exact Procedure.on_bind_of_ok h _

theorem on_of_unit {p : Procedure Unit} {x : Except Error Workspace}
    (h : p.on w = w.wholly (x.map ((), ·))) :
    (p.on w).2 = w.orUnchanged x ∧ ((∃ e, (p.on w).1 = .error e) ↔ ∃ e, x = .error e) := by
  rw [h]
  cases x with
  | error e => exact ⟨rfl, iff_of_true ⟨e, rfl⟩ ⟨e, rfl⟩⟩
  | ok r => exact ⟨rfl, iff_of_false nofun nofun⟩

/-- Done write by write, an operation leaves the workspace that it leaves as a whole, and fails just
if it is refused. -/
theorem on_procedure (w : Workspace) {p : Procedure Unit} (hp : command.procedure? = some p) :
    (p.on w).2 = w.apply command ∧ ((∃ e, (p.on w).1 = .error e) ↔ w.Refuses command) := by
  cases command with
  | create v form fields =>
    obtain rfl := Option.some.inj hp
    exact on_of_wholly (on_discard (InPlace.on_create w v form fields))
  | createShadow v form fields =>
    obtain rfl := Option.some.inj hp
    exact on_of_wholly (on_discard (InPlace.on_createShadow w v form fields))
  | addElseIf id =>
    obtain rfl := Option.some.inj hp
    exact on_of_wholly (on_discard (InPlace.on_addElseIf w id))
  | remove id =>
    obtain rfl := Option.some.inj hp
    exact on_of_wholly (on_discard (InPlace.on_remove w id))
  | setField | setEnabled | addValueSlot | addStatementSlot | addElse =>
    obtain rfl := Option.some.inj hp
    exact on_of_unit (InPlace.on_write w _ _)
  | connectStatement parent slot child =>
    obtain rfl := Option.some.inj hp
    exact on_of_unit (InPlace.on_connectStatement w parent slot child)
  | connectValue parent slot child =>
    obtain rfl := Option.some.inj hp
    rw [InPlace.on_connectValue]
    exact ⟨rfl, .rfl⟩
  | append head id =>
    obtain rfl := Option.some.inj hp
    rw [InPlace.on_append, apply, Refuses, append]
    cases w.append? head id with
    | error e => exact ⟨rfl, iff_of_true ⟨e, rfl⟩ rfl⟩
    | ok w' => exact ⟨rfl, iff_of_false nofun nofun⟩
  | disconnect id =>
    obtain rfl := Option.some.inj hp
    exact on_of_unit (InPlace.on_disconnect w id)
  | declareVariable =>
    obtain rfl := Option.some.inj hp
    exact ⟨rfl, iff_of_false nofun nofun⟩
  | readDocument | readLine | readAs => exact nomatch hp

/-- A command that is refused changes nothing. -/
theorem Consistent.apply_of_refuses (hw : w.Consistent) (h : w.Refuses command) :
    w.apply command = w := by
  have hunchanged {x : Except Error Workspace} (h : ∃ e, x = .error e) : w.orUnchanged x = w := by
    obtain ⟨e, rfl⟩ := h
    rfl
  have hdiscarded {α : Type} {x : Except Error (α × Workspace)} (h : ∃ e, x = .error e) :
      w.orUnchanged (x.map Prod.snd) = w := by
    obtain ⟨e, rfl⟩ := h
    rfl
  cases command with
  | create | createShadow | addElseIf | remove => exact hdiscarded h
  | setField | setEnabled | addValueSlot | addStatementSlot | addElse | connectStatement
  | disconnect => exact hunchanged h
  | connectValue parent slot child =>
    obtain ⟨e, h⟩ := h
    cases hadmit : w.admitValue parent slot child with
    | error e' => rw [Workspace.apply, connectValue_of_error hadmit]
    | ok r => exact nomatch (hw.connectValue_eq_ok_iff.2 ⟨r, hadmit⟩).symm.trans h
  | append head id =>
    rw [Refuses, Workspace.append] at h
    rw [Workspace.apply, Workspace.append]
    cases happend : w.append? head id with
    | error e => rfl
    | ok w' =>
      rw [happend] at h
      exact nomatch h
  | declareVariable | readDocument | readLine | readAs => exact h.elim

/-- Whatever has gone before, an operation that is refused leaves the whole workspace as it was, also
when it is done write by write and no write is taken back. -/
theorem unchanged_of_refuses {commands : List Command}
    (hroom : (∅ : Workspace).creations commands < wordLimit) {p : Procedure Unit}
    (hp : command.procedure? = some p) :
    let w := (∅ : Workspace).run commands
    (p.on w).2 = w.apply command ∧ ((∃ e, (p.on w).1 = .error e) ↔ w.Refuses command) ∧
      (w.Refuses command → w.apply command = w) := by
  intro w
  obtain ⟨hw, -⟩ := consistent_run consistent_empty commands (room_empty hroom)
  obtain ⟨hleft, hfails⟩ := on_procedure w hp
  exact ⟨hleft, hfails, hw.apply_of_refuses⟩

/-- A block with a slot for a number holds a default literal, for which a truth value does not fit. -/
theorem unchanged_of_refused_truth :
    let commands : List Command :=
      [.readLine {} Dialect.vocabulary "basic.show_number(7)", .create Dialect.vocabulary "logic_boolean" ∅]
    let command : Command := .connectValue 1 "NUM" 3
    let w := (∅ : Workspace).run commands
    (∅ : Workspace).creations commands < wordLimit ∧
      command.procedure? = some (InPlace.connectValue 1 "NUM" 3) ∧
      w.Refuses command ∧ w.apply command = w := by
  intro commands command w
  have hroom : (∅ : Workspace).creations commands < wordLimit := by decide +kernel
  have hrefuses : w.Refuses command := ⟨.capabilityMismatch "NUM" (some .number) (some .boolean), by
    decide +kernel⟩
  exact ⟨hroom, rfl, hrefuses, (unchanged_of_refuses hroom rfl).2.2 hrefuses⟩

end Workspace

end ScriptBlocks
