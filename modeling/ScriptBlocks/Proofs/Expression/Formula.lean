import Mathlib.Algebra.Field.Rat
import ScriptBlocks.Dialect
import ScriptBlocks.Scope

/-!
# Formulas

The expressions of the dialect as trees: operators with two operands over leaves, where a leaf is a
block without slots. A formula has a text, with the parentheses that the writer puts, and a value
for each choice of what the leaves stand for and what the operators do.

## Main definitions

* `Expression.Operator`, `Expression.Leaf`, `Expression.Formula` — the trees
* `Leaf.Valid`, `Formula.WellTyped` — leaves that can be read off a text, operands that slots take
* `Formula.code`, `Formula.strength` — the text and how tightly it binds
* `Formula.value` — the value
-/

namespace ScriptBlocks.Expression

/-- The binary operators of the dialect. -/
inductive Operator where
  | add
  | subtract
  | multiply
  | divide
  | power
  | equal
  | unequal
  | atMost
  | atLeast
  | less
  | greater
deriving DecidableEq

namespace Operator

def symbol : Operator → String
  | add => "+"
  | subtract => "-"
  | multiply => "*"
  | divide => "/"
  | power => "**"
  | equal => "=="
  | unequal => "!="
  | atMost => "<="
  | atLeast => ">="
  | less => "<"
  | greater => ">"

/-- The value of the operator's field in a block. -/
def code : Operator → String
  | add => "ADD"
  | subtract => "MINUS"
  | multiply => "MULTIPLY"
  | divide => "DIVIDE"
  | power => "POWER"
  | equal => "EQ"
  | unequal => "NEQ"
  | atMost => "LTE"
  | atLeast => "GTE"
  | less => "LT"
  | greater => "GT"

/-- How loosely an operator binds: powers, products, sums and comparisons, in this order. -/
def level : Operator → Nat
  | power => 1
  | multiply | divide => 2
  | add | subtract => 3
  | equal | unequal | atMost | atLeast | less | greater => 4

def isComparison (op : Operator) : Bool := op.level = 4

/-- The loosest level that a left operand has without parentheses. -/
def left : Operator → Nat
  | power => 0
  | multiply | divide => 2
  | _ => 3

/-- The loosest level that a right operand has without parentheses. -/
def right : Operator → Nat
  | power | multiply | divide => 1
  | add | subtract => 2
  | _ => 3

def form (op : Operator) : Form :=
  if op.isComparison then Dialect.logicCompare else Dialect.mathArithmetic

def precedence : Operator → Precedence
  | add | subtract => .additive
  | multiply | divide => .multiplicative
  | power => .exponent
  | _ => .relational

/-- The strengths that the writer asks of the operands. -/
def strengths (op : Operator) : Precedence × Precedence :=
  if op.isComparison then (Precedence.relational.tighter, Precedence.relational.tighter)
  else Dialect.operandStrengths op.code op.precedence

/-- The capability that the slots for the operands check. -/
def check (op : Operator) : Option Capability := if op.isComparison then none else some .number

def output (op : Operator) : Option Capability :=
  if op.isComparison then some .boolean else some .number

end Operator

/-- An expression without operands. -/
inductive Leaf where
  | name (s : String)
  | number (value : Value)
  | acceleration (axis : Char)
  | pin (digits : String)
  | truth (b : Bool)
  | light (x y : Nat)
  | button (which : String)
deriving DecidableEq

namespace Leaf

def form : Leaf → Form
  | name _ => Dialect.variablesGet
  | number _ => Dialect.mathNumber
  | acceleration _ => Dialect.accelerometer
  | pin _ => Dialect.pinRead
  | truth _ => Dialect.logicBoolean
  | light .. => Dialect.pointLed
  | button _ => Dialect.buttonIsPressed

/-- The fields of the leaf's block. -/
def fields : Leaf → List (String × Value)
  | name s => [("VAR", .string s)]
  | number value => [("NUM", value)]
  | acceleration axis => [("AXIS", .string (.singleton axis))]
  | pin digits => [("PIN", .string digits)]
  | truth b => [("BOOL", .string (if b then "TRUE" else "FALSE"))]
  | light x y => [("X", .int (.ofNat x)), ("Y", .int (.ofNat y))]
  | button which => [("BUTTON", .string which)]

def code : Leaf → String
  | name s => s
  | number value => value.toText
  | acceleration axis => "accelerometer.get_" ++ .singleton axis ++ "()"
  | pin digits => "pin" ++ digits ++ ".read_analog()"
  | truth b => if b then "True" else "False"
  | light x y => "led.point(" ++ toString x ++ ", " ++ toString y ++ ")"
  | button which => "input.button_is_pressed(Button." ++ which ++ ")"

/-- How tightly the text binds: a sign makes a number bind like the operation that it looks like. -/
def precedence : Leaf → Precedence
  | name _ | truth _ => .atomic
  | number value => if value.toText.toList.head? = some '-' then .unary else .atomic
  | _ => .call

def output : Leaf → Option Capability
  | name _ => none
  | truth _ | light .. | button _ => some .boolean
  | _ => some .number

/-- A name that a variable can have in the text of an expression: an identifier other than the words
and the constants of the dialect. -/
structure IsName (s : String) : Prop where
  identifier : ∃ c cs, s.toList = c :: cs ∧ (c.isAlpha || c = '_') = true ∧
    ∀ d ∈ cs, Text.isWord d = true
  not_keyword : s ∉ Dialect.keywords
  not_constant : s ≠ "True" ∧ s ≠ "False"

/-- A number that is read off its own text. -/
structure IsNumber (value : Value) : Prop where
  number_eq : Dialect.number value.toText = .ok value
  /-- Infinities and what is not a number have texts without digits. -/
  finite : ∀ x, value = .float x → ∃ negative exponent fraction, x = .finite negative exponent fraction

/-- The leaf's fields are such as its form reads off a text. -/
def Valid : Leaf → Prop
  | name s => IsName s
  | number value => IsNumber value
  | acceleration axis => axis = 'x' ∨ axis = 'y' ∨ axis = 'z'
  | pin digits => digits ≠ "" ∧ ∀ c ∈ digits.toList, Text.isDigit c = true
  | truth _ => True
  | light x y => x < integerLimit ∧ y < integerLimit
  | button which => which = "A" ∨ which = "B" ∨ which = "AB"

end Leaf

/-- An expression. -/
inductive Formula where
  | leaf (l : Leaf)
  | binary (op : Operator) (a b : Formula)
deriving DecidableEq

namespace Formula

def output : Formula → Option Capability
  | leaf l => l.output
  | binary op .. => op.output

/-- Each operand may go into its slot. -/
def WellTyped : Formula → Prop
  | leaf _ => True
  | binary op a b => Capability.compatible op.check a.output = true ∧
      Capability.compatible op.check b.output = true ∧ a.WellTyped ∧ b.WellTyped

/-- The leaves are such as are read off texts. -/
def Valid : Formula → Prop
  | leaf l => l.Valid
  | binary _ a b => a.Valid ∧ b.Valid

/-- No name is such as a host's key. -/
def KeyFree : Formula → Prop
  | leaf (.name s) => looksLikeKey s = false
  | leaf _ => True
  | binary _ a b => a.KeyFree ∧ b.KeyFree

/-- How many blocks lie on the longest way down. -/
def height : Formula → Nat
  | leaf _ => 1
  | binary _ a b => max a.height b.height + 1

def strength : Formula → Precedence
  | leaf l => l.precedence
  | binary op .. => op.precedence

/-- A text in parentheses if it binds looser than required. -/
def wrap (required strength : Precedence) (code : String) : String :=
  if strength < required then "(" ++ code ++ ")" else code

/-- The text, with the parentheses that the strengths ask for. -/
def code : Formula → String
  | leaf l => l.code
  | binary op a b =>
    wrap op.strengths.1 a.strength a.code ++ " " ++ op.symbol ++ " " ++
      wrap op.strengths.2 b.strength b.code

/-- What the operators do to the values of their operands; none where that is undefined. -/
abbrev Meaning := Operator → ℚ → ℚ → Option ℚ

/-- The four basic operations are exact, and a quotient by zero is undefined. Powers and comparisons
may be anything. -/
structure Meaning.Exact (ops : Meaning) : Prop where
  add (x y : ℚ) : ops .add x y = some (x + y)
  subtract (x y : ℚ) : ops .subtract x y = some (x - y)
  multiply (x y : ℚ) : ops .multiply x y = some (x * y)
  divide (x y : ℚ) : ops .divide x y = if y = 0 then none else some (x / y)

/-- The value where the leaves have the values given by `env`. -/
def value (ops : Meaning) (env : Leaf → ℚ) : Formula → Option ℚ
  | leaf l => some (env l)
  | binary op a b => do ops op (← a.value ops env) (← b.value ops env)

end Formula

end ScriptBlocks.Expression
