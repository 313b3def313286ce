import ScriptBlocks.Template

/-!
# Blocks

A block is one use of a form. It owns what its slots hold and the statement chained after it, and it
remembers its own owner.

## Main definitions

* `Slot` — a place in a block where others attach
* `Block` — the block, with its links
-/

namespace ScriptBlocks

/-- The number that names a block. Numbers start at 1 and are not used twice. -/
abbrev BlockId := Nat

/-- A place where other blocks attach. -/
inductive Slot where
  /-- Holds at most one expression, of a capability that `check` admits. -/
  | value (check : Option Capability) (child : Option BlockId)
  /-- Holds the head of a chain of statements. -/
  | statement (head : Option BlockId)
deriving DecidableEq

namespace Slot

/-- The block that the slot holds. -/
def occupant : Slot → Option BlockId
  | value _ child => child
  | statement head => head

def isStatement : Slot → Bool
  | statement _ => true
  | value .. => false

/-- The slot holding `occupant` instead. -/
def hold (occupant : Option BlockId) : Slot → Slot
  | value check _ => value check occupant
  | statement _ => statement occupant

/-- The empty slot that an argument declares, with its name. -/
def ofArg? : Arg → Option (String × Slot)
  | .value name check => some (name, value check none)
  | .statement name => some (name, statement none)
  | _ => none

end Slot

/-- A block of a workspace. -/
structure Block where
  id : BlockId
  /-- The name of the block's form. -/
  form : String
  fields : Fields
  /-- The slots in the order of their declaration. -/
  slots : OrderedMap String Slot
  shape : Shape
  enabled : Bool
  /-- Marks a default literal, which gives way to any other expression. -/
  shadow : Bool
  /-- The owner: the block whose slot holds this one, or the statement before it in its chain. -/
  parent : Option BlockId
  /-- The statement after this one in its chain. -/
  next : Option BlockId
deriving DecidableEq

namespace Block

/-- A new block of a form: empty slots and default fields from the template, then the given
fields. -/
def ofTemplate (id : BlockId) (form : String) (t : Template) (fields : Fields) : Block where
  id := id
  form := form
  fields := (OrderedMap.ofList (t.args.filterMap Arg.default?)).insertMany fields.entries
  slots := .ofList (t.args.filterMap Slot.ofArg?)
  shape := t.shape
  enabled := true
  shadow := false
  parent := none
  next := none

/-- The expression in a value slot. -/
def valueChild (b : Block) (slot : String) : Option BlockId :=
  match b.slots.find? slot with
  | some (.value _ child) => child
  | _ => none

/-- The head of the chain in a statement slot. -/
def statementHead (b : Block) (slot : String) : Option BlockId :=
  match b.slots.find? slot with
  | some (.statement head) => head
  | _ => none

/-- What the block owns: the occupants of its slots in order, then the statement after it. -/
def children (b : Block) : List BlockId :=
  b.slots.values.filterMap Slot.occupant ++ b.next.toList

def isRoot (b : Block) : Bool := b.parent.isNone

/-- The block without its link to the block `id`: the statement after it, or else its slots. -/
def release (b : Block) (id : BlockId) : Block :=
  if b.next = some id then { b with next := none }
  else { b with
    slots := b.slots.mapValues fun _ s => if s.occupant = some id then s.hold none else s }

end Block

end ScriptBlocks
