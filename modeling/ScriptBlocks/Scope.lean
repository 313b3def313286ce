import ScriptBlocks.Workspace.Walk

/-!
# Variables in scope

The field of a block that names a variable holds a name, or a key under which the host keeps the
variable. A key that the host has declared stands for the declared name, and one that merely looks
like a key for a fallback. An entry point declares the variables that its body touches.

## Main definitions

* `Workspace.resolveName` — the name that a text stands for
* `Workspace.freeVariables` — the variables that the body of an entry point touches
-/

namespace ScriptBlocks

/-- Whether a text looks like a host's key: at least eight hexadecimal digits and dashes. -/
def looksLikeKey (s : String) : Bool :=
  8 ≤ s.toList.length && s.toList.all fun c =>
    c.isDigit || ('a' ≤ c && c ≤ 'f') || ('A' ≤ c && c ≤ 'F') || c = '-'

namespace Workspace

/-- The name that the text of a variable field stands for. -/
def resolveName (w : Workspace) (raw fallback : String) : String :=
  match w.variableName? raw with
  | some name => name
  | none => if raw = "" ∨ looksLikeKey raw then fallback else raw

/-- The name of the variable that a block refers to, if its form has a variable. -/
def referencedName (v : Vocabulary) (fallback : String) (w : Workspace) (id : BlockId) :
    Option String := do
  let b ← w.find? id
  let field ← (← v.find? b.form).variableField
  return w.resolveName (b.fields.text field) fallback

/-- Keeps the first of equal names. -/
def distinct (names : List String) : List String :=
  names.foldl (fun seen name => if name ∈ seen then seen else seen ++ [name]) []

/-- The blocks in the bodies of a block. -/
def bodyBlocks (w : Workspace) (b : Block) : List BlockId :=
  (b.slots.values.filterMap fun
    | .statement head => head
    | .value .. => none).flatMap w.descendants

/-- The variables that the bodies of a block touch, in the order of their first occurrence. -/
def freeVariables (v : Vocabulary) (fallback : String) (w : Workspace) (id : BlockId) :
    List String :=
  match w.find? id with
  | none => []
  | some b => distinct ((w.bodyBlocks b).filterMap (referencedName v fallback w))

end Workspace

end ScriptBlocks
