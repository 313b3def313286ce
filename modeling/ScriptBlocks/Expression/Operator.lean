import ScriptBlocks.Text.Blank

/-!
# Operators at the top level

Where the operators of an expression stand, for a reader that splits the expression at one of them.
The text is scanned from left to right. A string literal runs from a quote to the same quote, and a
backslash in it hides the next character. Outside literals the longest operator is taken first, and
it counts when it stands outside all brackets and an operand has just ended; a sign in front of an
operand does not count. Spaces and tabs change nothing, and every other character belongs to an
operand.

## Main definitions

* `Expression.operators` — the operators, the longer ones before their beginnings
* `Expression.topLevelOperators` — the operators that count, with the places where they stand
* `Expression.splitBinary` — the operands and operator of an expression
-/

namespace ScriptBlocks.Expression

/-- The binary operators, each after those that it is the beginning of. -/
def operators : List String := ["**", "==", "!=", "<=", ">=", "<", ">", "+", "-", "*", "/"]

/-- The operators with their characters. -/
def spelledOperators : List (String × List Char) := operators.map fun op => (op, op.toList)

/-- The operator that a text starts with. -/
def operatorAt (s : List Char) : Option String :=
  (spelledOperators.find? fun e => e.2.isPrefixOf s).map Prod.fst

/-- What the scan remembers. -/
structure Scan where
  /-- The quote that ends the literal being scanned. -/
  quote : Option Char := none
  /-- Opening brackets less closing ones. Any number of them is counted; a counter of 32 bits would
  do the same for fewer than 2^31 brackets. -/
  depth : Int := 0
  /-- Whether the next token starts an operand. -/
  operandNext : Bool := true
  /-- Characters that belong to what was scanned already. -/
  skip : Nat := 0

/-- The scan after an operand or a part of one. -/
def Scan.inOperand (s : Scan) : Scan := { s with operandNext := false }

/-- One step inside a literal. -/
def Scan.stepQuoted (s : Scan) (q c : Char) : Scan :=
  if c = '\\' then { s with skip := 1 }
  else if c = q then { s with quote := none }
  else s

/-- One step outside literals, at the text `c :: rest`; gives the operator that counts, if there is
one. -/
def Scan.stepPlain (s : Scan) (c : Char) (rest : List Char) : Scan × Option String :=
  if c = '"' ∨ c = '\'' then ({ s.inOperand with quote := some c }, none)
  else if c = '(' ∨ c = '[' then ({ s with depth := s.depth + 1, operandNext := true }, none)
  else if c = ')' ∨ c = ']' then ({ s.inOperand with depth := s.depth - 1 }, none)
  else if c = ' ' ∨ c = '\t' then (s, none)
  else match operatorAt (c :: rest) with
    | none => (s.inOperand, none)
    | some op =>
      let s := { s with skip := op.length - 1 }
      if s.depth = 0 ∧ !s.operandNext then ({ s with operandNext := true }, some op) else (s, none)

/-- One step of the scan at the text `c :: rest`. -/
def Scan.step (s : Scan) (c : Char) (rest : List Char) : Scan × Option String :=
  if s.skip ≠ 0 then ({ s with skip := s.skip - 1 }, none)
  else match s.quote with
    | some q => (s.stepQuoted q c, none)
    | none => s.stepPlain c rest

/-- The operators that count from a given state of the scan on, with their offsets. -/
def scanFrom : Nat → Scan → List Char → List (Nat × String)
  | _, _, [] => []
  | offset, s, c :: rest =>
    let (s, found) := s.step c rest
    (found.map (offset, ·)).toList ++ scanFrom (offset + 1) s rest

/-- The operators of an expression that count, with the offsets at which they start. -/
def topLevelOperators (s : List Char) : List (Nat × String) := scanFrom 0 {} s

/-- Splits a text at one of `ops`: at the last one that counts if `rightmost`, at the first one
otherwise. The operands are trimmed and must not be empty. -/
def splitChars (s : List Char) (ops : List String) (rightmost : Bool) :
    Option (List Char × String × List Char) := do
  let candidates := (topLevelOperators s).filter fun (_, op) => ops.contains op
  let (place, op) ← if rightmost then candidates.getLast? else candidates.head?
  let lhs := Text.trim (s.take place)
  let rhs := Text.trim (s.drop (place + op.length))
  if lhs = [] ∨ rhs = [] then none else some (lhs, op, rhs)

/-- The left operand, the operator and the right operand of an expression. -/
def splitBinary (text : String) (ops : List String) (rightmost : Bool) :
    Option (String × String × String) :=
  (splitChars text.toList ops rightmost).map fun (lhs, op, rhs) =>
    (String.ofList lhs, op, String.ofList rhs)

end ScriptBlocks.Expression
