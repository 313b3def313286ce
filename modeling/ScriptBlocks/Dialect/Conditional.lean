import ScriptBlocks.Dialect.Basic
import ScriptBlocks.Workspace.Basic

/-!
# Conditionals

A conditional has one arm to begin with and takes further ones as slots: a condition and a body with
the next number, and a body for the case that no condition holds.

## Main definitions

* `controlsIf` — the form
* `Workspace.addElseIf`, `Workspace.addElse`, `Workspace.arms` — its arms
-/

namespace ScriptBlocks

namespace Dialect

/-- The slot for the condition of an arm. -/
def conditionSlot (n : Nat) : String := "IF" ++ toString n

/-- The slot for the body of an arm. -/
def bodySlot (n : Nat) : String := "DO" ++ toString n

/-- The slot for the body that is left when no condition holds. -/
def elseSlot : String := "ELSE"

/-- One arm: a header with its condition, and its body. -/
def arm (p : Parts) (word : String) (n : Nat) (default : String) : String :=
  word ++ " " ++ p.value (conditionSlot n) .loosest default ++ ":\n" ++ p.body (bodySlot n)

/-- The arms numbered from `n` on, at most `fuel` of them, up to the first number that is not
there. -/
def furtherArms (p : Parts) : Nat → Nat → String
  | 0, _ => ""
  | fuel + 1, n =>
    if p.hasSlot (conditionSlot n) then arm p "elif" n "False" ++ furtherArms p fuel (n + 1) else ""

/-- The text of a conditional. -/
def writeConditional (p : Parts) : String :=
  arm p "if" 0 "True" ++ furtherArms p (p.values.size + p.bodies.size) 1 ++
    if p.hasSlot elseSlot then "else:\n" ++ p.body elseSlot else ""

/-- A statement with conditions. -/
def controlsIf : Form where
  name := "controls_if"
  category := some "Logic"
  role := .statement
  gated := true
  template := .chained "if %1 %2" [.value "IF0" (some .boolean), .statement "DO0"]
    "If / else if / else"
  pattern := .all
    [.wordBoundary, "if", .wordBoundary, .blanks, .group 1 (.many (· ≠ ':')), ":"]
  read c :=
    let condition := trimmed (c.group 1)
    .ok (if condition = "" then ∅ else fields [("IF0", condition)])
  construction := .withArguments
  write p := lines (writeConditional p)

end Dialect

namespace Workspace

open Dialect

/-- The first number from `n` on without a condition slot, among the next `fuel`. -/
def freeArm (b : Block) : Nat → Nat → Nat
  | 0, n => n
  | fuel + 1, n => if b.slots.contains (conditionSlot n) then freeArm b fuel (n + 1) else n

/-- Adds an arm with a condition to a conditional, and gives its number. -/
def addElseIf (w : Workspace) (id : BlockId) : Except Error (Nat × Workspace) := do
  let b ← w.get id
  let n := freeArm b b.slots.size 1
  let w ← w.addValueSlot id (conditionSlot n) (some .boolean)
  return (n, ← w.addStatementSlot id (bodySlot n))

/-- Adds the arm without a condition, unless it is there. -/
def addElse (w : Workspace) (id : BlockId) : Except Error Workspace :=
  w.addStatementSlot id elseSlot

/-- The number of arms with a condition, and whether there is one without. -/
def arms (w : Workspace) (id : BlockId) : Except Error (Nat × Bool) := do
  let b ← w.get id
  let conditions := b.slots.entries.filter fun (name, slot) =>
    "IF".toList.isPrefixOf name.toList && !slot.isStatement
  return (conditions.length, b.slots.contains elseSlot)

end Workspace

end ScriptBlocks
