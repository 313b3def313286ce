import ScriptBlocks.Proofs.Run

/-!
# Reading by commands

Whatever reading does to a workspace it does by commands: it creates blocks, connects them and
removes those that cannot stay. The commands are told here for each step of building, for any way to
attach an argument of which they are told already.

## Main definitions

* `Workspace.Perform` — commands do what attaching an argument does
* `Workspace.constructCommands` — the commands that build the blocks for field values
* `Workspace.plugCommands`, `Workspace.linkCommands` — the commands that plug in an argument, and
  that chain blocks

## Main statements

* `Workspace.run_constructCommands` — a run of them leaves the workspace that building leaves
* `Workspace.run_plugCommands`, `Workspace.run_linkCommands` — the same for the other two
-/

namespace ScriptBlocks.Workspace

/-- The block is removed if the attempt that it was made for failed. -/
def undoCommands {α : Type} (id : BlockId) : Except Error α → List Command
  | .ok _ => []
  | .error _ => [.remove id]

/-- The commands that plug what was built for an argument into its slot, and remove it if the slot
refuses it. -/
def plugCommands (parent : BlockId) (slot : String) : Attempt BlockId → List Command
  | (.error _, _) => []
  | (.ok child, w) =>
    .connectValue parent slot child :: undoCommands child (w.connectValue parent slot child).1

/-- The commands that build a default literal in a slot. -/
def shadowCommands (v : Vocabulary) (w : Workspace) (parent : BlockId) (slot form : String)
    (fields : Fields) : List Command :=
  .createShadow v form fields ::
    match w.createShadow v form fields with
    | .error _ => []
    | .ok (literal, w) => plugCommands parent slot (.ok literal, w)

/-- The commands that attach arguments one after the other up to the first error. -/
def attachAllCommands (attach : Workspace → String → String → Attempt Unit)
    (commands : Workspace → String → String → List Command) :
    List (String × String) → Workspace → List Command
  | [], _ => []
  | (slot, text) :: arguments, w =>
    commands w slot text ++
      match attach w slot text with
      | (.ok (), w) => attachAllCommands attach commands arguments w
      | (.error _, _) => []

/-- The commands do to a workspace what attaching an argument does. -/
def Perform (commands : Workspace → BlockId → String → String → List Command)
    (attach : Workspace → BlockId → String → String → Attempt Unit) : Prop :=
  ∀ w id slot text, w.run (commands w id slot text) = (attach w id slot text).2

/-- The commands that put into the slots of a new block what the given fields say. -/
def fillCommands (v : Vocabulary) (attach : Workspace → BlockId → String → String → Attempt Unit)
    (commands : Workspace → BlockId → String → String → List Command) (w : Workspace) (id : BlockId)
    (form : Form) (given : Fields) : List Command :=
  match form.construction with
  | .bare => []
  | .withArguments =>
    attachAllCommands (attach · id) (commands · id)
      (takeArguments (form.template.valueSlots.map Prod.fst) given).1 w
  | .literal slot literal field fallback =>
    match (given.find? slot).or fallback with
    | none => []
    | some value => shadowCommands v w id slot literal (.ofList [(field, value)])

/-- The commands that build the blocks for the field values of a form. -/
def constructCommands (v : Vocabulary)
    (attach : Workspace → BlockId → String → String → Attempt Unit)
    (commands : Workspace → BlockId → String → String → List Command) (w : Workspace) (form : Form)
    (given : Fields) : List Command :=
  .create v form.name (form.keptFields given) ::
    match w.create v form.name (form.keptFields given) with
    | .error _ => []
    | .ok (id, w) =>
      fillCommands v attach commands w id form given ++
        undoCommands id (fillSlots v attach w id form given).1

/-- The commands that chain each block to the one before it. -/
def linkCommands : List BlockId → List Command
  | first :: second :: rest => .append first second :: linkCommands (second :: rest)
  | _ => []

variable {v : Vocabulary} {w : Workspace} {p : BlockId} {slot : String} {form : Form}

theorem run_append (w : Workspace) (commands commands' : List Command) :
    w.run (commands ++ commands') = (w.run commands).run commands' :=
  List.foldl_append

theorem run_cons (w : Workspace) (command : Command) (commands : List Command) :
    w.run (command :: commands) = (w.apply command).run commands := rfl

theorem discard_eq_run (w : Workspace) (id : BlockId) : w.discard id = w.run [.remove id] := by
  rw [discard, run_cons, apply]
  cases w.remove id with
  | error => rfl
  | ok => rfl

/-! ### Single blocks -/

theorem run_plugCommands (p : BlockId) (slot : String) (built : Attempt BlockId) :
    built.2.run (plugCommands p slot built) = (plugBuilt p slot built).2 := by
  obtain ⟨e | child, w⟩ := built
  · rfl
  · rw [plugCommands, plugBuilt, run_cons, apply]
    rcases w.connectValue p slot child with ⟨e | ⟨⟩, w₁⟩
    · dsimp only
      rw [undoCommands, run_cons, apply]
      cases w₁.remove child with
      | error => rfl
      | ok => rfl
    · rfl

theorem run_shadowCommands (name : String) (fields : Fields) :
    w.run (shadowCommands v w p slot name fields) = (attachShadow v w p slot name fields).2 := by
  rw [shadowCommands, attachShadow, run_cons, apply]
  cases w.createShadow v name fields with
  | error => rfl
  | ok r =>
    obtain ⟨literal, w₁⟩ := r
    change w₁.run (plugCommands p slot (.ok literal, w₁)) = _
    rw [plugCommands, run_cons, apply]
    dsimp only
    rcases w₁.connectValue p slot literal with ⟨e | ⟨⟩, w₂⟩
    · exact (w₂.discard_eq_run literal).symm
    · rfl

/-! ### Blocks with what is in their slots -/

theorem run_attachAllCommands {attach : Workspace → String → String → Attempt Unit}
    {commands : Workspace → String → String → List Command}
    (h : ∀ w slot text, w.run (commands w slot text) = (attach w slot text).2)
    (arguments : List (String × String)) (w : Workspace) :
    w.run (attachAllCommands attach commands arguments w) = (attachAll attach arguments w).2 := by
  induction arguments generalizing w with
  | nil => rfl
  | cons argument arguments ih =>
    obtain ⟨slot, text⟩ := argument
    rw [attachAllCommands, attachAll, run_append, h]
    rcases attach w slot text with ⟨e | ⟨⟩, w₁⟩
    · rfl
    · exact ih w₁

section

variable {attach : Workspace → BlockId → String → String → Attempt Unit}
  {commands : Workspace → BlockId → String → String → List Command} (h : Perform commands attach)
include h

theorem run_fillCommands (w : Workspace) (id : BlockId) (form : Form) (given : Fields) :
    w.run (fillCommands v attach commands w id form given) =
      (fillSlots v attach w id form given).2 := by
  rw [fillCommands, fillSlots]
  cases form.construction with
  | bare => rfl
  | withArguments => exact run_attachAllCommands (h · id) _ w
  | literal slot literal field fallback =>
    dsimp only
    cases (given.find? slot).or fallback with
    | none => rfl
    | some value =>
      dsimp only
      rw [run_shadowCommands]
      rcases attachShadow v w id slot literal (.ofList [(field, value)]) with ⟨e | _, w₁⟩
      · rfl
      · rfl

/-- A run of the commands that build blocks leaves the workspace that building leaves. -/
theorem run_constructCommands (w : Workspace) (form : Form) (given : Fields) :
    w.run (constructCommands v attach commands w form given) =
      (construct v attach w form given).2 := by
  rw [constructCommands, run_cons, apply]
  cases hcreate : w.create v form.name (form.keptFields given) with
  | error e =>
    rw [construct_of_create_error hcreate]
    rfl
  | ok r =>
    obtain ⟨id, w₁⟩ := r
    rw [construct_of_create_ok hcreate]
    change w₁.run (_ ++ _) = _
    rw [run_append, run_fillCommands h]
    rcases fillSlots v attach w₁ id form given with ⟨e | ⟨⟩, w₂⟩
    · exact (w₂.discard_eq_run id).symm
    · rfl

end

/-! ### Chains -/

theorem run_linkCommands (ids : List BlockId) (w : Workspace) :
    w.run (linkCommands ids) = (linkAll ids w).2 := by
  induction ids generalizing w with
  | nil => rfl
  | cons first rest ih =>
    cases rest with
    | nil => rfl
    | cons second rest => exact ih (w.append first second).2

end ScriptBlocks.Workspace
