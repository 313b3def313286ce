import ScriptBlocks.Proofs.Reading.Commands
import ScriptBlocks.Proofs.Template

/-!
# Forms of a host

A host takes the forms of the dialect, or makes forms of its own, and may give each of them a
function that builds its blocks. The library leaves to such a function how it goes about it, so here
it may be any function of the vocabulary, the workspace, the form and the field values; but a
workspace changes by commands only, so what it does is a run of them. Reading asks it where the
library would build the blocks of the form itself, and that is all it changes.

## Main definitions

* `Form.IsMade` — the forms that there are
* `HostConstruct`, `HostForm`, `Registry` — a vocabulary with functions of the host
* `Registry.register` — one more form
* `Registry.readDocument`, `Registry.readAs` — reading with the functions of the host
* `Registry.documentCommands`, `Registry.asCommands` — the commands that this comes to

## Main statements

* `Form.IsMade.nodup_argNames` — forms that are read with arguments tell these apart by name
* `Registry.map_vocabulary_register` — registering works as it does without such functions
* `Registry.readDocument_eq`, `Registry.readAs_eq` — without them reading is what it was
* `Registry.run_documentCommands`, `Registry.run_asCommands` — reading is a run of commands
* `Registry.wellFormed_readDocument` — so it leaves the links in order
-/

namespace ScriptBlocks

/-! ### Forms -/

/-- What a form counts as that is not made an entry point. -/
def Shape.role : Shape → Role
  | .statement .. => .statement
  | .expression _ => .expression

/-- The forms that a host can have: those of the dialect, those that it makes, which build one block
with their fields, and what it makes of either. What a template and a pattern are is settled when a
form is made, and arguments are read by forms of the dialect only. -/
inductive Form.IsMade : Form → Prop
  | builtin {f : Form} : f ∈ Dialect.forms → IsMade f
  | new (name : String) (template : Template) (pattern : Pattern)
      (write : Parts → Except Error Fragment) :
      IsMade { name, role := template.shape.role, template, pattern, write }
  | category {f : Form} (category : String) : IsMade f → IsMade { f with category := some category }
  | gated {f : Form} : IsMade f → IsMade { f with gated := true }
  | container {f : Form} : IsMade f → IsMade { f with role := .container }
  | variableField {f : Form} (field : String) :
      IsMade f → IsMade { f with variableField := some field }
  | read {f : Form} (read : Capture → Except ReadFault Fields) : IsMade f → IsMade { f with read }

/-- A form that is read with arguments is one of the dialect as far as its arguments go, so it tells
them apart by their names. -/
theorem Form.IsMade.nodup_argNames {f : Form} (h : f.IsMade)
    (hargs : f.construction = .withArguments) : f.template.argNames.Nodup := by
  induction h with
  | @builtin f hmem =>
    have hall : ∀ f ∈ Dialect.forms, f.construction = .withArguments →
        f.template.argNames.Nodup := by decide
    exact hall f hmem hargs
  | new => exact nomatch hargs
  | category _ _ ih | gated _ ih | container _ ih | variableField _ _ ih | read _ _ ih =>
    exact ih hargs

/-- A function of the host that builds the blocks for the field values of a form. It looks at
everything there is, gives commands, and tells in the end which block it built or why it did not.
What it asks of the workspace on the way it can find out beforehand, for it knows what its commands
do. -/
structure HostConstruct where
  plan : Vocabulary → Workspace → Form → Fields → List Command × Except Error BlockId

/-- What the function of the host comes to. -/
def HostConstruct.run (c : HostConstruct) (v : Vocabulary) (w : Workspace) (form : Form)
    (fields : Fields) : Attempt BlockId :=
  let (commands, result) := c.plan v w form fields
  (result, w.run commands)

/-- A form as a host registers it, with its own function if it has one. -/
structure HostForm where
  form : Form
  made : form.IsMade
  construct? : Option HostConstruct := none

/-- Forms with distinct names in the order of their registration, some with functions of the
host. -/
structure Registry where
  forms : List HostForm
  nodup : ((forms.map HostForm.form).map Form.name).Nodup

namespace Registry

/-- The forms without the functions of the host. -/
def vocabulary (r : Registry) : Vocabulary := ⟨r.forms.map HostForm.form, r.nodup⟩

/-- The function of the host for the form of that name. -/
def construct? (r : Registry) (name : String) : Option HostConstruct :=
  (r.forms.find? fun f => f.form.name = name).bind HostForm.construct?

/-- Adds a form behind the others; its name must be new. -/
def register (r : Registry) (f : HostForm) : Except Error Registry :=
  if h : f.form.name ∈ (r.forms.map HostForm.form).map Form.name then
    .error (.duplicateForm f.form.name)
  else .ok
    { forms := r.forms ++ [f]
      nodup := by
        rw [List.map_append, List.map_append]
        exact List.nodup_append.2 ⟨r.nodup, List.nodup_singleton _, fun x hx y hy heq =>
          h (List.mem_singleton.1 hy ▸ heq ▸ hx)⟩ }

variable {r r' : Registry} {f : HostForm}

theorem forms_of_register (h : r.register f = .ok r') : r'.forms = r.forms ++ [f] := by
  rw [register] at h
  split at h
  · exact nomatch h
  · rw [← Except.ok.inj h]

/-- The functions for the forms that were there stay. -/
theorem construct?_of_register (h : r.register f = .ok r') {form : Form}
    (hform : form ∈ r.vocabulary.forms) : r'.construct? form.name = r.construct? form.name := by
  obtain ⟨g, hg, rfl⟩ := List.mem_map.1 hform
  have hfound : (r.forms.find? fun x => x.form.name = g.form.name).isSome = true :=
    List.find?_isSome.2 ⟨g, hg, decide_eq_true rfl⟩
  rw [construct?, construct?, forms_of_register h, List.find?_append, Option.or_of_isSome hfound]

/-! ### Reading -/

/-- Builds the blocks for the field values of a form, by the function of the host if it has one. -/
def construct (r : Registry) (attach : Workspace → BlockId → String → String → Attempt Unit)
    (w : Workspace) (form : Form) (fields : Fields) : Attempt BlockId :=
  match r.construct? form.name with
  | some c => c.run r.vocabulary w form fields
  | none => w.construct r.vocabulary attach form fields

/-- Reads a text as an expression for a slot, with arguments down to the given depth. -/
def attachArgument (r : Registry) : Nat → Workspace → BlockId → String → String → Attempt Unit
  | 0, w, _, _, _ => (.ok (), w)
  | depth + 1, w, parent, slot, text =>
    match r.vocabulary.argument? text with
    | none => (.ok (), w)
    | some (.error e) => (.error e, w)
    | some (.ok (form, fields)) =>
      Workspace.plugBuilt parent slot (r.construct (r.attachArgument depth) w form fields)

/-- Builds the blocks for a match of a form in a line. -/
def build (r : Registry) (w : Workspace) (line : String) (form : Form) (c : Capture) :
    Attempt BlockId :=
  match form.readFields c with
  | .error e => (.error e, w)
  | .ok fields => r.construct (r.attachArgument line.length) w form fields

/-- Reads one line. -/
def readLine (r : Registry) (o : ReadingOptions) (w : Workspace) (line : String) :
    LineResult × Workspace :=
  let line := String.ofList (Text.trim line.toList)
  if o.ignores line then (.ignored, w)
  else match r.vocabulary.firstMatch line with
    | none => (.unmatched, w)
    | some (form, c) =>
      match r.build w line form c with
      | (.ok id, w) => (.built id, w)
      | (.error e, w) => (.failed form.name e, w)

/-- Reads lines one after the other. -/
def readLines (r : Registry) (o : ReadingOptions) :
    List String → Workspace → List LineResult × Workspace
  | [], w => ([], w)
  | line :: lines, w =>
    let (result, w) := r.readLine o w line
    let (results, w) := r.readLines o lines w
    (result :: results, w)

theorem readLines_cons (r : Registry) (o : ReadingOptions) (line : String) (lines : List String)
    (w : Workspace) :
    r.readLines o (line :: lines) w =
      ((r.readLine o w line).1 :: (r.readLines o lines (r.readLine o w line).2).1,
        (r.readLines o lines (r.readLine o w line).2).2) := by
  rw [readLines]

/-- Reads a document. -/
def readDocument (r : Registry) (o : ReadingOptions) (w : Workspace) (text : String) :
    Outcome × Workspace :=
  let lines := (Text.documentLines text.toList).map String.ofList
  let (results, w) := r.readLines o lines w
  let (unlinked, w) := Workspace.linkAll (Outcome.ofResults results 0).blocks w
  (.ofResults results unlinked, w)

/-- Reads a text with the form of a given name, whichever form would come first. -/
def readAs (r : Registry) (w : Workspace) (text form : String) : Attempt (Option BlockId) :=
  match r.vocabulary.get form with
  | .error e => (.error e, w)
  | .ok f =>
    match f.matchIn text with
    | none => (.ok none, w)
    | some c =>
      match r.build w text f c with
      | (.ok id, w) => (.ok (some id), w)
      | (.error e, w) => (.error e, w)

/-! ### Without functions of the host -/

section

variable (h : ∀ f ∈ r.forms, f.construct? = none)
include h

theorem construct?_eq_none (name : String) : r.construct? name = none := by
  rw [construct?]
  cases hfind : r.forms.find? fun f => f.form.name = name with
  | none => rfl
  | some f => exact h f (List.mem_of_find?_eq_some hfind)

theorem construct_eq (attach : Workspace → BlockId → String → String → Attempt Unit) (w : Workspace)
    (form : Form) (fields : Fields) :
    r.construct attach w form fields = w.construct r.vocabulary attach form fields := by
  rw [construct, construct?_eq_none h]

theorem attachArgument_eq (depth : Nat) :
    r.attachArgument depth = Workspace.attachArgument r.vocabulary depth := by
  induction depth with
  | zero => rfl
  | succ depth ih =>
    funext w parent slot text
    rw [attachArgument, Workspace.attachArgument_succ, ih]
    rcases r.vocabulary.argument? text with _ | e | ⟨form, fields⟩
    · rfl
    · rfl
    · exact congrArg (Workspace.plugBuilt parent slot) (construct_eq h ..)

theorem build_eq (w : Workspace) (line : String) (form : Form) (c : Capture) :
    r.build w line form c = w.build r.vocabulary line form c := by
  rw [build, Workspace.build, attachArgument_eq h]
  cases form.readFields c with
  | error => rfl
  | ok fields => exact construct_eq h ..

theorem readLine_eq (o : ReadingOptions) (w : Workspace) (line : String) :
    r.readLine o w line = w.readLine o r.vocabulary line := by
  rw [readLine, Workspace.readLine]
  generalize String.ofList (Text.trim line.toList) = line
  cases o.ignores line with
  | true => rfl
  | false =>
    cases r.vocabulary.firstMatch line with
    | none => rfl
    | some found =>
      obtain ⟨form, c⟩ := found
      have hbuild := build_eq h w line form c
      rcases hresult : w.build r.vocabulary line form c with ⟨e | id, w₁⟩
      · simp only [hbuild, hresult]
      · simp only [hbuild, hresult]

theorem readAs_eq (w : Workspace) (text form : String) :
    r.readAs w text form = w.readAs r.vocabulary text form := by
  rw [readAs, Workspace.readAs]
  cases r.vocabulary.get form with
  | error => rfl
  | ok f =>
    cases hmatch : f.matchIn text with
    | none => simp only [hmatch]
    | some c =>
      have hbuild := build_eq h w text f c
      rcases hresult : w.build r.vocabulary text f c with ⟨e | id, w₁⟩
      · simp only [hmatch, hbuild, hresult]
      · simp only [hmatch, hbuild, hresult]

/-- Where the host leaves all building to the library, reading is what it was. -/
theorem readDocument_eq (o : ReadingOptions) (w : Workspace) (text : String) :
    r.readDocument o w text = w.readDocument o r.vocabulary text := by
  have hlines (lines : List String) (w : Workspace) :
      r.readLines o lines w = Workspace.readLines o r.vocabulary lines w := by
    induction lines generalizing w with
    | nil => rfl
    | cons line lines ih =>
      rw [readLines_cons, Workspace.readLines_cons, readLine_eq h, ih]
  rw [readDocument, Workspace.readDocument, hlines]

end

/-! ### Reading by commands -/

/-- The commands that build the blocks for the field values of a form. -/
def constructCommands (r : Registry)
    (attach : Workspace → BlockId → String → String → Attempt Unit)
    (commands : Workspace → BlockId → String → String → List Command) (w : Workspace) (form : Form)
    (fields : Fields) : List Command :=
  match r.construct? form.name with
  | some c => (c.plan r.vocabulary w form fields).1
  | none => w.constructCommands r.vocabulary attach commands form fields

/-- The commands that read a text as an expression for a slot. -/
def argumentCommands (r : Registry) : Nat → Workspace → BlockId → String → String → List Command
  | 0, _, _, _, _ => []
  | depth + 1, w, parent, slot, text =>
    match r.vocabulary.argument? text with
    | some (.ok (form, fields)) =>
      r.constructCommands (r.attachArgument depth) (r.argumentCommands depth) w form fields ++
        Workspace.plugCommands parent slot (r.construct (r.attachArgument depth) w form fields)
    | _ => []

/-- The commands that build the blocks for a match of a form in a line. -/
def buildCommands (r : Registry) (w : Workspace) (line : String) (form : Form) (c : Capture) :
    List Command :=
  match form.readFields c with
  | .error _ => []
  | .ok fields =>
    r.constructCommands (r.attachArgument line.length) (r.argumentCommands line.length) w form
      fields

/-- The commands that read one line. -/
def lineCommands (r : Registry) (o : ReadingOptions) (w : Workspace) (line : String) :
    List Command :=
  let line := String.ofList (Text.trim line.toList)
  if o.ignores line then []
  else match r.vocabulary.firstMatch line with
    | none => []
    | some (form, c) => r.buildCommands w line form c

/-- The commands that read lines one after the other. -/
def linesCommands (r : Registry) (o : ReadingOptions) : List String → Workspace → List Command
  | [], _ => []
  | line :: lines, w => r.lineCommands o w line ++ r.linesCommands o lines (r.readLine o w line).2

/-- The commands that read a document. -/
def documentCommands (r : Registry) (o : ReadingOptions) (w : Workspace) (text : String) :
    List Command :=
  let lines := (Text.documentLines text.toList).map String.ofList
  r.linesCommands o lines w ++
    Workspace.linkCommands (Outcome.ofResults (r.readLines o lines w).1 0).blocks

variable {o : ReadingOptions}

/-- The commands that read a text with the form of a given name. -/
def asCommands (r : Registry) (w : Workspace) (text form : String) : List Command :=
  match r.vocabulary.get form with
  | .error _ => []
  | .ok f =>
    match f.matchIn text with
    | none => []
    | some c => r.buildCommands w text f c

theorem run_constructCommands {attach : Workspace → BlockId → String → String → Attempt Unit}
    {commands : Workspace → BlockId → String → String → List Command}
    (h : Workspace.Perform commands attach) (w : Workspace) (form : Form) (fields : Fields) :
    w.run (r.constructCommands attach commands w form fields) =
      (r.construct attach w form fields).2 := by
  rw [constructCommands, construct]
  cases r.construct? form.name with
  | none => exact Workspace.run_constructCommands h w form fields
  | some c => rfl

theorem perform_argumentCommands (depth : Nat) :
    Workspace.Perform (r.argumentCommands depth) (r.attachArgument depth) := by
  induction depth with
  | zero => exact fun _ _ _ _ => rfl
  | succ depth ih =>
    intro w id slot text
    rw [argumentCommands, attachArgument]
    rcases r.vocabulary.argument? text with _ | e | ⟨form, fields⟩
    · rfl
    · rfl
    · dsimp only
      -- first the blocks for the argument are built, then they are plugged in
      rw [Workspace.run_append, run_constructCommands ih]
      exact Workspace.run_plugCommands id slot _

theorem run_buildCommands (w : Workspace) (line : String) (form : Form) (c : Capture) :
    w.run (r.buildCommands w line form c) = (r.build w line form c).2 := by
  rw [buildCommands, build]
  cases form.readFields c with
  | error => rfl
  | ok fields => exact run_constructCommands (perform_argumentCommands line.length) w form fields

theorem run_lineCommands (w : Workspace) (line : String) :
    w.run (r.lineCommands o w line) = (r.readLine o w line).2 := by
  rw [lineCommands, readLine]
  generalize String.ofList (Text.trim line.toList) = line
  split
  · rfl
  · cases r.vocabulary.firstMatch line with
    | none => rfl
    | some found =>
      obtain ⟨form, c⟩ := found
      dsimp only
      rw [run_buildCommands]
      rcases r.build w line form c with ⟨e | id, w₁⟩
      · rfl
      · rfl

theorem run_linesCommands (lines : List String) (w : Workspace) :
    w.run (r.linesCommands o lines w) = (r.readLines o lines w).2 := by
  induction lines generalizing w with
  | nil => rfl
  | cons line lines ih =>
    rw [linesCommands, Workspace.run_append, run_lineCommands, ih, readLines_cons]

/-- Reading a document is a run of commands, whatever the functions of the host do. -/
theorem run_documentCommands (w : Workspace) (text : String) :
    w.run (r.documentCommands o w text) = (r.readDocument o w text).2 := by
  rw [documentCommands, Workspace.run_append, run_linesCommands, Workspace.run_linkCommands]
  rfl

theorem run_asCommands (w : Workspace) (text form : String) :
    w.run (r.asCommands w text form) = (r.readAs w text form).2 := by
  rw [asCommands, readAs]
  cases r.vocabulary.get form with
  | error => rfl
  | ok f =>
    dsimp only
    cases f.matchIn text with
    | none => rfl
    | some c =>
      dsimp only
      rw [run_buildCommands]
      rcases r.build w text f c with ⟨e | id, w₁⟩
      · rfl
      · rfl

/-- Reading leaves the links in order, whatever the functions of the host do, as long as not all
64-bit ids have been given out. -/
theorem wellFormed_readDocument (commands : List Command) (o : ReadingOptions) (text : String)
    (hroom : (∅ : Workspace).creations
      (commands ++ r.documentCommands o ((∅ : Workspace).run commands) text) < wordLimit) :
    (r.readDocument o ((∅ : Workspace).run commands) text).2.WellFormed := by
  rw [← run_documentCommands, ← Workspace.run_append]
  exact Workspace.wellFormed_run _ hroom

end Registry

end ScriptBlocks
