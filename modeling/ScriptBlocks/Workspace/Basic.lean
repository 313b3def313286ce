import ScriptBlocks.Form

/-!
# Workspaces

A workspace owns the blocks of a program: the blocks by id, the order in which they were created,
the last id given out, and the variables that the host has declared. Only creation gives out ids, so
an id that was once removed stays unknown.

A workspace that was built by operations of this library keeps its links consistent; one that was
read from a document may have links to nowhere, and every operation is defined on it all the same.

## Main definitions

* `Workspace` — the state
* `Workspace.find?`, `Workspace.get`, `Workspace.blocksInOrder`, `Workspace.roots` — looking
* `Workspace.create`, `Workspace.edit` — creation, and changes to a single block
-/

namespace ScriptBlocks

/-- The blocks of a program. -/
structure Workspace where
  blocks : OrderedMap BlockId Block
  /-- The ids in the order of creation. -/
  order : List BlockId
  /-- The id given out last; zero before the first. -/
  lastId : BlockId
  /-- The names of the host's variables, by the host's keys. -/
  variableNames : OrderedMap String String
deriving DecidableEq

/-- What an operation gives that may leave the workspace changed even when it is refused. -/
abbrev Attempt (α : Type) := Except Error α × Workspace

namespace Workspace

/-- The workspace without blocks. -/
def empty : Workspace := ⟨∅, [], 0, ∅⟩

instance : EmptyCollection Workspace := ⟨empty⟩
instance : Inhabited Workspace := ⟨empty⟩

def find? (w : Workspace) (id : BlockId) : Option Block := w.blocks.find? id

/-- The block with that id. -/
def get (w : Workspace) (id : BlockId) : Except Error Block :=
  match w.find? id with
  | some b => .ok b
  | none => .error (.unknownBlock id)

def contains (w : Workspace) (id : BlockId) : Bool := w.blocks.contains id

def size (w : Workspace) : Nat := w.blocks.size

/-- The blocks in the order of creation. -/
def blocksInOrder (w : Workspace) : List Block := w.order.filterMap w.find?

/-- The blocks without an owner, in the order of creation. -/
def roots (w : Workspace) : List BlockId :=
  (w.blocksInOrder.filter Block.isRoot).map Block.id

/-- Changes one block; nothing happens if there is none of that id. -/
def modify (w : Workspace) (id : BlockId) (f : Block → Block) : Workspace :=
  { w with blocks := w.blocks.modify id f }

/-- Changes one block, which has to exist. -/
def edit (w : Workspace) (id : BlockId) (f : Block → Block) : Except Error Workspace :=
  if w.contains id then .ok (w.modify id f) else .error (.unknownBlock id)

/-- The id that follows `id`. Ids are 64-bit numbers. -/
def succId (id : BlockId) : BlockId := (id + 1) % wordLimit

/-- Adds a block of a form, with the template's defaults beneath the given fields. -/
def create (w : Workspace) (v : Vocabulary) (form : String) (fields : Fields) :
    Except Error (BlockId × Workspace) := do
  let f ← v.get form
  let id := succId w.lastId
  return (id,
    { w with
      blocks := w.blocks.insert id (.ofTemplate id form f.template fields)
      order := w.order ++ [id]
      lastId := id })

/-- Adds a block that gives way to any other expression in its slot. -/
def createShadow (w : Workspace) (v : Vocabulary) (form : String) (fields : Fields) :
    Except Error (BlockId × Workspace) := do
  let (id, w) ← w.create v form fields
  return (id, w.modify id fun b => { b with shadow := true })

/-- Writes a field. -/
def setField (w : Workspace) (id : BlockId) (name : String) (value : Value) :
    Except Error Workspace :=
  w.edit id fun b => { b with fields := b.fields.insert name value }

def setEnabled (w : Workspace) (id : BlockId) (enabled : Bool) : Except Error Workspace :=
  w.edit id fun b => { b with enabled := enabled }

/-- Declares a further slot on a block. A slot of that name that is there already stays. -/
def addSlot (w : Workspace) (id : BlockId) (name : String) (slot : Slot) : Except Error Workspace :=
  w.edit id fun b => { b with slots := b.slots.insertNew name slot }

def addValueSlot (w : Workspace) (id : BlockId) (name : String) (check : Option Capability) :
    Except Error Workspace :=
  w.addSlot id name (.value check none)

def addStatementSlot (w : Workspace) (id : BlockId) (name : String) : Except Error Workspace :=
  w.addSlot id name (.statement none)

/-- Gives one of the host's variables a name. -/
def declareVariable (w : Workspace) (key name : String) : Workspace :=
  { w with variableNames := w.variableNames.insert key name }

def variableName? (w : Workspace) (key : String) : Option String := w.variableNames.find? key

end Workspace

end ScriptBlocks
