import ScriptBlocks.Scope
import ScriptBlocks.Workspace.Walk

/-!
# Writing source text

The text of a block is put together by its form from the texts of what its slots hold. Blocks of
gated forms are silent, which is never an error, unless they are enabled, lie in enabled blocks only
and stand beneath an entry point.

## Main definitions

* `Workspace.isSuppressed` — whether a block of a gated form is silent
* `Workspace.write`, `Workspace.writeChain` — the text of a block, and of a chain of statements
* `Workspace.writeAll` — the text of everything in a workspace
-/

namespace ScriptBlocks.Workspace

/-- Whether a block of a gated form is silent at this place. -/
def isSuppressed (v : Vocabulary) (w : Workspace) (id : BlockId) : Bool :=
  w.isDisabled id ||
    !(((w.find? (w.rootOf id)).bind fun root => v.find? root.form).map Form.isContainer).getD false

/-- The text of the statements from a block on, each written by `render`. -/
def chainText (render : BlockId → Except Error Fragment) (w : Workspace) (head : BlockId) :
    Except Error String := do
  let fragments ← (w.chain head).mapM render
  return String.join (fragments.map Fragment.asLines)

/-- The text of the expression in a value slot. -/
def operand (render : BlockId → Except Error Fragment) (w : Workspace) (slot : String)
    (child : BlockId) : Except Error Operand := do
  match ← render child with
  | .expression code precedence => return ⟨code, precedence⟩
  | .statement _ => throw (.statementText slot (← w.get child).form)

/-- Adds what one slot holds to the parts of a text. -/
def addSlotText (render : BlockId → Except Error Fragment) (w : Workspace) (p : Parts) :
    String × Slot → Except Error Parts
  | (slot, .value _ none) => return { p with values := p.values.insert slot none }
  | (slot, .value _ (some child)) => do
    let text ← w.operand render slot child
    return { p with values := p.values.insert slot (some text) }
  | (slot, .statement head) => do
    let code ← match head with
      | some head => w.chainText render head
      | none => pure ""
    return { p with bodies := p.bodies.insert slot (Layout.indentLines code p.options.indent) }

/-- The parts that the text of a block is put together from. -/
def parts (v : Vocabulary) (o : WritingOptions) (w : Workspace)
    (render : BlockId → Except Error Fragment) (form : Form) (b : Block) (id : BlockId) :
    Except Error Parts := do
  let p ← b.slots.entries.foldlM (w.addSlotText render) ({ fields := b.fields, options := o } : Parts)
  let name := form.variableField.map fun field =>
    w.resolveName (b.fields.text field) o.fallbackVariable
  let globals := if form.isContainer then freeVariables v o.fallbackVariable w id else []
  return { p with variableName? := name, globals := globals }

/-- The text of a block, with what it holds down to the given depth. -/
def renderWithin (v : Vocabulary) (o : WritingOptions) (w : Workspace) :
    Nat → BlockId → Except Error Fragment
  | 0, id => .error (.unknownBlock id)
  | depth + 1, id => do
    let b ← w.get id
    let form ← v.get b.form
    if form.gated && isSuppressed v w id then return .statement ""
    form.write (← w.parts v o (renderWithin v o w depth) form b id)

/-- The text of a block and everything in its slots, as a fragment. -/
def render (v : Vocabulary) (o : WritingOptions) (w : Workspace) (id : BlockId) :
    Except Error Fragment :=
  renderWithin v o w (w.size + 1) id

/-- The text of a block and everything in its slots. -/
def write (v : Vocabulary) (o : WritingOptions) (w : Workspace) (id : BlockId) :
    Except Error String :=
  (render v o w id).map Fragment.code

/-- The text of the statements from a block on. -/
def writeChain (v : Vocabulary) (o : WritingOptions) (w : Workspace) (head : BlockId) :
    Except Error String :=
  w.chainText (render v o w) head

/-- The text of a root: a chain of statements, or an expression as a line of its own. -/
def writeRoot (v : Vocabulary) (o : WritingOptions) (w : Workspace) (id : BlockId) :
    Except Error String := do
  match (← w.get id).shape with
  | .statement .. => writeChain v o w id
  | .expression _ =>
    let code ← write v o w id
    return if code = "" then "" else code ++ "\n"

/-- The section of a root in the text of a workspace. There is none for a blank text, nor where a
block is of an unknown form. -/
def section? (v : Vocabulary) (o : WritingOptions) (w : Workspace) (root : BlockId) :
    Except Error (Option String) := do
  let _ ← w.get root
  match writeRoot v o w root with
  | .ok code => return if Text.isBlank code.toList then none else some code
  | .error (.unknownForm _) => return none
  | .error e => throw e

/-- The texts of all roots in the order of their creation, with a blank line between them. -/
def writeAll (v : Vocabulary) (o : WritingOptions) (w : Workspace) : Except Error String := do
  let sections ← w.roots.mapM (section? v o w)
  return "\n".intercalate (sections.filterMap id)

end ScriptBlocks.Workspace
