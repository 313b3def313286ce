import ScriptBlocks.OrderedMap.Seek
import ScriptBlocks.Workspace.Basic

/-!
# Walks

Following links up to owners and down to what a block owns. Links do not run in circles in a
workspace built by this library, so a walk meets each block at most once, and the number of blocks
bounds the number of its steps. The walks carry that bound; it never cuts one short that would end.

## Main definitions

* `Workspace.ancestors`, `Workspace.rootOf` — the owners above a block
* `Workspace.surroundParent`, `Workspace.isDisabled` — the block in whose slot a block lies
* `Workspace.chain`, `Workspace.tail` — the statements from a block on
* `Workspace.descendants` — everything a block owns
-/

namespace ScriptBlocks.Workspace

/-- The owners above a block, nearest first, at most `fuel` of them. -/
def ancestorsWithin (w : Workspace) : Nat → BlockId → List BlockId
  | 0, _ => []
  | fuel + 1, id =>
    match (w.find? id).bind Block.parent with
    | some parent => parent :: w.ancestorsWithin fuel parent
    | none => []

/-- The owners above a block, nearest first, at most `fuel` of them. The entries are `all`, and the
next look-up starts at `near`. -/
def ancestorsAmong (all : List (BlockId × Block)) :
    Nat → List (BlockId × Block) → BlockId → List BlockId
  | 0, _, _ => []
  | fuel + 1, near, id =>
    match OrderedMap.seek all near id with
    | [] => []
    | (_, b) :: near =>
      match b.parent with
      | some parent => parent :: ancestorsAmong all fuel near parent
      | none => []

theorem ancestorsAmong_eq (w : Workspace) (fuel : Nat) {near : List (BlockId × Block)}
    (hnear : ∀ e ∈ near, e ∈ w.blocks.entries) (id : BlockId) :
    ancestorsAmong w.blocks.entries.reverse fuel near id = w.ancestorsWithin fuel id := by
  induction fuel generalizing near id with
  | zero => rfl
  | succ fuel ih =>
    obtain ⟨hfind, hrest⟩ := OrderedMap.find?_eq_of_seek (k := id) hnear
    rw [ancestorsAmong, ancestorsWithin, find?, hfind]
    cases h : OrderedMap.seek w.blocks.entries.reverse near id with
    | nil => rfl
    | cons e rest =>
      rw [h] at hrest
      have := fun parent => ih (fun x hx => hrest x (List.mem_cons_of_mem _ hx)) parent
      simp only [List.head?_cons, Option.map_some, Option.bind_some]
      cases e.2.parent with
      | none => rfl
      | some parent => exact congrArg _ (this parent)

/-- The owners above a block, nearest first. An owner is mostly older than what it owns, so the
entries are gone through from the youngest on. -/
def ancestors (w : Workspace) (id : BlockId) : List BlockId :=
  let all := w.blocks.entries.reverse
  ancestorsAmong all w.size all id

theorem ancestors_eq (w : Workspace) (id : BlockId) :
    w.ancestors id = w.ancestorsWithin w.size id :=
  w.ancestorsAmong_eq w.size (fun _ he => List.mem_reverse.1 he) id

/-- The top of the stack or expression tree that holds the block. -/
def rootOf (w : Workspace) (id : BlockId) : BlockId := ((w.ancestors id).getLast?).getD id

/-- The first owner among `owners` that does not merely precede the block below it. -/
def firstSurrounding (w : Workspace) : BlockId → List BlockId → Option BlockId
  | _, [] => none
  | current, parent :: rest =>
    if (w.find? parent).bind Block.next = some current then w.firstSurrounding parent rest
    else some parent

/-- The block in whose slot the block lies, past the statements that precede it in its chain. -/
def surroundParent (w : Workspace) (id : BlockId) : Option BlockId :=
  w.firstSurrounding id (w.ancestors id)

/-- Whether the block or one of the next `fuel` blocks around it is disabled. -/
def isDisabledWithin (w : Workspace) : Nat → BlockId → Bool
  | 0, _ => false
  | fuel + 1, id =>
    match w.find? id with
    | none => false
    | some b =>
      !b.enabled || match w.surroundParent id with
        | some parent => w.isDisabledWithin fuel parent
        | none => false

/-- Whether the block or one of those around it is disabled. A disabled statement does not disable
the statements after it. -/
def isDisabled (w : Workspace) (id : BlockId) : Bool := w.isDisabledWithin (w.size + 1) id

/-- The next `fuel` statements from a block on. -/
def chainWithin (w : Workspace) : Nat → BlockId → List BlockId
  | 0, _ => []
  | fuel + 1, id =>
    match w.find? id with
    | none => []
    | some b => id :: match b.next with
      | some next => w.chainWithin fuel next
      | none => []

/-- The statements from a block on, itself included. -/
def chain (w : Workspace) (head : BlockId) : List BlockId := w.chainWithin w.size head

/-- The last block of the chain that goes on from `b`, at most `fuel` further. -/
def lastFrom (w : Workspace) : Nat → Block → Except Error Block
  | 0, b => .ok b
  | fuel + 1, b =>
    match b.next with
    | none => .ok b
    | some next => do w.lastFrom fuel (← w.get next)

/-- The last statement of the chain that goes on from a block. -/
def tail (w : Workspace) (id : BlockId) : Except Error BlockId := do
  return (← w.lastFrom (w.size + 1) (← w.get id)).id

/-- What a block owns down to a depth of `fuel`, itself first. -/
def descendantsWithin (w : Workspace) : Nat → BlockId → List BlockId
  | 0, _ => []
  | fuel + 1, id =>
    match w.find? id with
    | none => []
    | some b => id :: b.children.flatMap (w.descendantsWithin fuel)

/-- Everything a block owns, itself first: slot by slot, then the statements after it. -/
def descendants (w : Workspace) (id : BlockId) : List BlockId := w.descendantsWithin w.size id

end ScriptBlocks.Workspace
