import ScriptBlocks.Workspace.Walk

/-!
# Connections

Attaching blocks to each other and taking them apart. A block has at most one owner, a slot holds at
most one block, and no connection may put a block beneath itself. Whether a connection is admitted
is decided before anything changes.

## Main definitions

* `Workspace.admitStatement`, `Workspace.admitValue`, `Workspace.admitNext` — the conditions
* `Workspace.connectStatement`, `Workspace.connectValue`, `Workspace.append` — the connections
* `Workspace.disconnect`, `Workspace.remove` — taking apart and removing
-/

namespace ScriptBlocks.Workspace

/-- Detaches a block from its owner; it keeps what it owns. A block without an owner stays. -/
def disconnect (w : Workspace) (id : BlockId) : Except Error Workspace := do
  match (← w.get id).parent with
  | none => return w
  | some parent =>
    let w ← w.edit parent fun b => b.release id
    return w.modify id fun b => { b with parent := none }

/-- Forgets the blocks with these ids. -/
def forget (w : Workspace) (ids : List BlockId) : Workspace :=
  { w with
    blocks := w.blocks.filterKeys fun id => !ids.contains id
    order := w.order.filter fun id => !ids.contains id }

/-- Removes a block with everything it owns, and says how many blocks that were. -/
def remove (w : Workspace) (id : BlockId) : Except Error (Nat × Workspace) := do
  let w ← w.disconnect id
  let doomed := w.descendants id
  return (doomed.length, w.forget doomed)

/-- The condition on any attachment: the child has no owner, and it is not the parent or above
it. -/
def admitChild (w : Workspace) (parent child : BlockId) : Except Error Unit := do
  if (← w.get child).parent.isSome then throw (.alreadyAttached child)
  if child = parent ∨ child ∈ w.ancestors parent then throw (.wouldCycle parent child)

/-- The conditions for a statement to go into a slot. -/
def admitStatement (w : Workspace) (parent : BlockId) (slot : String) (child : BlockId) :
    Except Error Unit := do
  match (← w.get parent).slots.find? slot with
  | some (.statement none) => pure ()
  | some (.statement (some _)) => throw (.slotOccupied parent slot)
  | some (.value ..) => throw (.notStatementSlot slot)
  | none => throw (.unknownSlot parent slot)
  let incoming ← w.get child
  if !incoming.shape.hasPrevious then throw (.noPrevious incoming.form)
  w.admitChild parent child

/-- The shadow in a value slot that is to be filled, if it holds one. -/
def replaceableShadow (w : Workspace) (parent : BlockId) (slot : String) :
    Option BlockId → Except Error (Option BlockId)
  | none => return none
  | some existing => do
    if (← w.get existing).shadow then return some existing
    throw (.slotOccupied parent slot)

/-- The conditions for an expression to go into a slot; gives the shadow that it replaces. -/
def admitValue (w : Workspace) (parent : BlockId) (slot : String) (child : BlockId) :
    Except Error (Option BlockId) := do
  let (check, occupant) ← match (← w.get parent).slots.find? slot with
    | some (.value check occupant) => pure (check, occupant)
    | some (.statement _) => throw (.notValueSlot slot)
    | none => throw (.unknownSlot parent slot)
  let shadow ← w.replaceableShadow parent slot occupant
  let incoming ← w.get child
  match incoming.shape with
  | .statement .. => throw (.notExpression incoming.form)
  | .expression output =>
    if !Capability.compatible check output then throw (.capabilityMismatch slot check output)
  w.admitChild parent child
  return shadow

/-- The conditions for a statement to follow the last one of a chain, which is given back. -/
def admitNext (w : Workspace) (head id : BlockId) : Except Error BlockId := do
  let last ← w.tail head
  let lastBlock ← w.get last
  if !lastBlock.shape.hasNext then throw (.noNext lastBlock.form)
  let incoming ← w.get id
  if !incoming.shape.hasPrevious then throw (.noPrevious incoming.form)
  w.admitChild last id
  return last

/-- Records the owner of a block. -/
def own (w : Workspace) (parent child : BlockId) : Workspace :=
  w.modify child fun b => { b with parent := some parent }

/-- Puts a block into a slot. -/
def fill (w : Workspace) (parent : BlockId) (slot : String) (child : BlockId) : Workspace :=
  w.modify parent fun b => { b with slots := b.slots.modify slot (Slot.hold (some child)) }

/-- Attaches a statement, with the chain it heads, to a statement slot. -/
def connectStatement (w : Workspace) (parent : BlockId) (slot : String) (child : BlockId) :
    Except Error Workspace := do
  w.admitStatement parent slot child
  return (w.fill parent slot child).own parent child

/-- Plugs a block into a value slot once the slot is free. In a workspace with stray links the
removal of the shadow may have taken one of the two blocks with it. -/
def plug (w : Workspace) (parent : BlockId) (slot : String) (child : BlockId) :
    Attempt Unit :=
  if w.contains parent then
    let filled := w.fill parent slot child
    if filled.contains child then (.ok (), filled.own parent child)
    else (.error (.unknownBlock child), filled)
  else (.error (.unknownBlock parent), w)

/-- Plugs an expression into a value slot. A shadow there is removed with all it owns. -/
def connectValue (w : Workspace) (parent : BlockId) (slot : String) (child : BlockId) :
    Attempt Unit :=
  match w.admitValue parent slot child with
  | .error e => (.error e, w)
  | .ok none => w.plug parent slot child
  | .ok (some shadow) =>
    match w.remove shadow with
    | .error e => (.error e, w)
    | .ok (_, w) => w.plug parent slot child

/-- Links a statement after the last one of the chain that goes on from `head`. -/
def append? (w : Workspace) (head id : BlockId) : Except Error Workspace := do
  let last ← w.admitNext head id
  return (w.modify last fun b => { b with next := some id }).own last id

/-- Links a statement after the last one of a chain if that is admitted, and says whether it
was. -/
def append (w : Workspace) (head id : BlockId) : Bool × Workspace :=
  match w.append? head id with
  | .ok w => (true, w)
  | .error _ => (false, w)

end ScriptBlocks.Workspace
