import ScriptBlocks.Expression.Parentheses
import ScriptBlocks.Text.Line
import ScriptBlocks.Workspace.Connect

/-!
# Reading source text

A document is read line by line. Each line that is not ignorable goes to the first form whose pattern
matches in it; a line that no form matches is dropped, and one whose form cannot make a block of it
is reported. Neither leaves a block behind, though ids may have been used up. At last the blocks are
chained in the order of their lines, where their connectors allow it.

The text of an argument is read as an expression, whose operands are arguments in turn. An argument
is shorter than the text that it is an argument of, so the length of the line bounds the depth.

## Main definitions

* `Workspace.attachArgument` — an expression read into a slot
* `Workspace.construct` — the blocks for the field values read off a match
* `LineResult`, `Workspace.readLine` — what becomes of one line
* `Outcome`, `Workspace.readDocument` — what becomes of a document
* `Workspace.readSingle`, `Workspace.readAs` — a text that is read on its own
-/

namespace ScriptBlocks

/-- How source text is read. -/
structure ReadingOptions where
  /-- What a comment starts with; nothing is a comment if this is empty. -/
  commentMark : String := "#"
  /-- Lines that mean nothing on their own. -/
  skipLines : List String := ["pass"]
deriving DecidableEq

/-- Whether a trimmed line is passed over. -/
def ReadingOptions.ignores (o : ReadingOptions) (line : String) : Bool :=
  line = "" || (o.commentMark ≠ "" && o.commentMark.toList.isPrefixOf line.toList) ||
    o.skipLines.contains line

namespace Workspace

/-- Removes a block that was built in part, with everything attached to it. -/
def discard (w : Workspace) (id : BlockId) : Workspace :=
  match w.remove id with
  | .ok (_, w) => w
  | .error _ => w

/-- Builds a default literal in a slot. -/
def attachShadow (v : Vocabulary) (w : Workspace) (parent : BlockId) (slot form : String)
    (fields : Fields) : Attempt BlockId :=
  match w.createShadow v form fields with
  | .error e => (.error e, w)
  | .ok (literal, w) =>
    match w.connectValue parent slot literal with
    | (.ok (), w) => (.ok literal, w)
    | (.error e, w) => (.error e, w.discard literal)

/-- Takes the texts of the arguments out of the field values of a form. -/
def takeArguments (slots : List String) (fields : Fields) : List (String × String) × Fields :=
  match slots with
  | [] => ([], fields)
  | slot :: slots =>
    match fields.find? slot with
    | none => takeArguments slots fields
    | some value =>
      let (arguments, rest) := takeArguments slots (fields.erase slot)
      ((slot, value.toText) :: arguments, rest)

/-- Attaches arguments one after the other up to the first error. -/
def attachAll (attach : Workspace → String → String → Attempt Unit) :
    List (String × String) → Workspace → Attempt Unit
  | [], w => (.ok (), w)
  | (slot, text) :: arguments, w =>
    match attach w slot text with
    | (.ok (), w) => attachAll attach arguments w
    | (.error e, w) => (.error e, w)

/-- Builds the blocks for the field values of a form. A part of them that fails takes the others
with it. Arguments are attached by `attach`, which is given the block that they belong to. -/
def construct (v : Vocabulary) (attach : Workspace → BlockId → String → String → Attempt Unit)
    (w : Workspace) (form : Form) (fields : Fields) : Attempt BlockId :=
  match form.construction with
  | .bare =>
    match w.create v form.name fields with
    | .error e => (.error e, w)
    | .ok (id, w) => (.ok id, w)
  | .withArguments =>
    let (arguments, fields) := takeArguments (form.template.valueSlots.map Prod.fst) fields
    match w.create v form.name fields with
    | .error e => (.error e, w)
    | .ok (id, w) =>
      match attachAll (attach · id) arguments w with
      | (.ok (), w) => (.ok id, w)
      | (.error e, w) => (.error e, w.discard id)
  | .literal slot literal field fallback =>
    match w.create v form.name (fields.erase slot) with
    | .error e => (.error e, w)
    | .ok (id, w) =>
      match (fields.find? slot).or fallback with
      | none => (.ok id, w)
      | some value =>
        match attachShadow v w id slot literal (.ofList [(field, value)]) with
        | (.ok _, w) => (.ok id, w)
        | (.error e, w) => (.error e, w.discard id)

/-- Reads a text as an expression for a slot, with arguments down to the given depth. A text that no
form reads as a whole leaves the slot empty, and so does an expression that the slot refuses. -/
def attachArgument (v : Vocabulary) : Nat → Workspace → BlockId → String → String → Attempt Unit
  | 0, w, _, _, _ => (.ok (), w)
  | depth + 1, w, parent, slot, text =>
    let text := Expression.bare text
    if text = "" then (.ok (), w)
    else match v.expressionFor text with
      | none => (.ok (), w)
      | some (form, c) =>
        match form.readFields c with
        | .error e => (.error e, w)
        | .ok fields =>
          match construct v (attachArgument v depth) w form fields with
          | (.error e, w) => (.error e, w)
          | (.ok child, w) =>
            match w.connectValue parent slot child with
            | (.ok (), w) => (.ok (), w)
            | (.error _, w) =>
              match w.remove child with
              | .ok (_, w) => (.ok (), w)
              | .error e => (.error e, w)

/-- Builds the blocks for a match of a form in a line. -/
def build (v : Vocabulary) (w : Workspace) (line : String) (form : Form) (c : Capture) :
    Attempt BlockId :=
  match form.readFields c with
  | .error e => (.error e, w)
  | .ok fields => construct v (attachArgument v line.length) w form fields

end Workspace

/-- What becomes of a line. -/
inductive LineResult where
  | ignored
  /-- No form matches. -/
  | unmatched
  /-- The named form matches, but makes no block of the line. -/
  | failed (form : String) (error : Error)
  | built (block : BlockId)
deriving DecidableEq

/-- A line that a form matches but makes no block of. -/
structure LineFailure where
  line : Nat
  form : String
  error : Error
deriving DecidableEq

/-- What becomes of a document. Lines are numbered from 1. -/
structure Outcome where
  /-- The blocks built, in the order of their lines. -/
  blocks : List BlockId
  /-- The lines that no form matches. -/
  unmatched : List Nat
  failures : List LineFailure
  /-- How many blocks could not be chained to the one before them. -/
  unlinked : Nat
deriving DecidableEq

namespace Outcome

/-- Whether every line was ignorable or became a block, and all blocks are one chain. -/
def isClean (o : Outcome) : Bool := o.unmatched.isEmpty && o.failures.isEmpty && o.unlinked = 0

/-- The outcome for the results of the lines. -/
def ofResults (results : List LineResult) (unlinked : Nat) : Outcome where
  blocks := results.filterMap fun
    | .built id => some id
    | _ => none
  unmatched := (results.zipIdx 1).filterMap fun
    | (.unmatched, n) => some n
    | _ => none
  failures := (results.zipIdx 1).filterMap fun
    | (.failed form error, n) => some ⟨n, form, error⟩
    | _ => none
  unlinked := unlinked

end Outcome

namespace Workspace

/-- Reads one line. -/
def readLine (o : ReadingOptions) (v : Vocabulary) (w : Workspace) (line : String) :
    LineResult × Workspace :=
  let line := String.ofList (Text.trim line.toList)
  if o.ignores line then (.ignored, w)
  else match v.firstMatch line with
    | none => (.unmatched, w)
    | some (form, c) =>
      match build v w line form c with
      | (.ok id, w) => (.built id, w)
      | (.error e, w) => (.failed form.name e, w)

/-- Reads lines one after the other. -/
def readLines (o : ReadingOptions) (v : Vocabulary) :
    List String → Workspace → List LineResult × Workspace
  | [], w => ([], w)
  | line :: lines, w =>
    let (result, w) := w.readLine o v line
    let (results, w) := readLines o v lines w
    (result :: results, w)

/-- Chains each block to the one before it, where that is admitted; gives the number of those that
could not be chained. -/
def linkAll : List BlockId → Workspace → Nat × Workspace
  | first :: second :: rest, w =>
    let (linked, w) := w.append first second
    let (unlinked, w) := linkAll (second :: rest) w
    ((if linked then 0 else 1) + unlinked, w)
  | _, w => (0, w)

/-- Reads a document. -/
def readDocument (o : ReadingOptions) (v : Vocabulary) (w : Workspace) (text : String) :
    Outcome × Workspace :=
  let lines := (Text.documentLines text.toList).map String.ofList
  let (results, w) := readLines o v lines w
  let (unlinked, w) := linkAll (Outcome.ofResults results 0).blocks w
  (.ofResults results unlinked, w)

/-- Reads a line on its own, for a host that wants its block. There is none for a line that is passed
over and for one that no form matches. -/
def readSingle (o : ReadingOptions) (v : Vocabulary) (w : Workspace) (line : String) :
    Attempt (Option BlockId) :=
  let line := String.ofList (Text.trim line.toList)
  if o.ignores line then (.ok none, w)
  else match v.firstMatch line with
    | none => (.ok none, w)
    | some (form, c) =>
      match build v w line form c with
      | (.ok id, w) => (.ok (some id), w)
      | (.error e, w) => (.error e, w)

/-- Reads a text with the form of a given name, whichever form would come first; nothing is built if
its pattern does not match. -/
def readAs (v : Vocabulary) (w : Workspace) (text form : String) : Attempt (Option BlockId) :=
  match v.get form with
  | .error e => (.error e, w)
  | .ok f =>
    match f.matchIn text with
    | none => (.ok none, w)
    | some c =>
      match build v w text f c with
      | (.ok id, w) => (.ok (some id), w)
      | (.error e, w) => (.error e, w)

end Workspace

end ScriptBlocks
