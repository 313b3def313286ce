import ScriptBlocks.Dialect.Basic

/-!
# Operations

Arithmetic and comparison of two operands. Arithmetic is split at its loosest operator: the last sum
or difference, or else the last product or quotient, or else the first power, which associates to
the right. A comparison has exactly one comparison operator outside its brackets.
-/

namespace ScriptBlocks.Dialect

/-- An arithmetic operator: its code in the field of a block, its symbol and its strength. -/
structure ArithmeticOperator where
  code : String
  symbol : String
  precedence : Precedence

def addition : ArithmeticOperator := ⟨"ADD", "+", .additive⟩

/-- The arithmetic operators, the looser ones first. -/
def arithmeticOperators : List ArithmeticOperator :=
  [addition, ⟨"MINUS", "-", .additive⟩, ⟨"MULTIPLY", "*", .multiplicative⟩,
    ⟨"DIVIDE", "/", .multiplicative⟩, ⟨"POWER", "**", .exponent⟩]

/-- Splits an arithmetic expression at its loosest operator. -/
def splitArithmetic (text : String) : Option (String × String × String) :=
  Expression.splitBinary text ["+", "-"] true
    <|> Expression.splitBinary text ["*", "/"] true
    <|> Expression.splitBinary text ["**"] false

/-- The strengths that an operator asks of its left and its right operand. -/
def operandStrengths (code : String) (p : Precedence) : Precedence × Precedence :=
  if code = "MINUS" ∨ code = "DIVIDE" then (p, p.tighter)
  else if code = "POWER" then (p.tighter, p)
  else (p, p)

def readArithmetic (c : Capture) : Except ReadFault Fields :=
  let text := Expression.bare c.text
  match splitArithmetic text with
  | none => .error (.noOperator text)
  | some (a, symbol, b) =>
    let op := (arithmeticOperators.find? fun op => op.symbol = symbol).getD addition
    .ok (fields [("A", a), ("OP", op.code), ("B", b)])

def writeArithmetic (p : Parts) : Except Error Fragment :=
  let code := p.fieldText "OP"
  let op := (arithmeticOperators.find? fun op => op.code = code).getD addition
  let (left, right) := operandStrengths code op.precedence
  expression (p.value "A" left "0" ++ " " ++ op.symbol ++ " " ++ p.value "B" right "0")
    op.precedence

/-- Arithmetic on two numbers. -/
def mathArithmetic : Form where
  name := "math_arithmetic"
  category := some "Math"
  role := .expression
  template := .expression "%1 %2 %3" (some .number)
    [.value "A" (some .number),
      .dropdown "OP"
        [("+", "ADD"), ("-", "MINUS"), ("×", "MULTIPLY"), ("÷", "DIVIDE"), ("^", "POWER")],
      .value "B" (some .number)]
    "Arithmetic on two numbers"
  pattern := .all
    [.atStart, .atLeastOneFew inLine, .blanks,
      .alt "**" (.one fun c => c = '-' || c = '+' || c = '*' || c = '/'),
      .blanks, .atLeastOne inLine, .atEnd]
  read := readArithmetic
  construction := .withArguments
  write := writeArithmetic

/-- The comparisons: the code in the field of a block, and the symbol. -/
def comparisons : List (String × String) :=
  [("EQ", "=="), ("NEQ", "!="), ("LTE", "<="), ("GTE", ">="), ("LT", "<"), ("GT", ">")]

def comparisonSymbols : List String := comparisons.map Prod.snd

def readComparison (c : Capture) : Except ReadFault Fields :=
  let text := Expression.bare c.text
  let found := (Expression.topLevelOperators text.toList).filter fun (_, op) =>
    comparisonSymbols.contains op
  if 1 < found.length then .error (.chainedComparison text)
  else match Expression.splitBinary text comparisonSymbols false with
    | none => .error (.noComparison text)
    | some (a, symbol, b) =>
      let op := ((comparisons.find? fun e => e.2 = symbol).map Prod.fst).getD "EQ"
      .ok (fields [("A", a), ("OP", op), ("B", b)])

/-- Comparisons chain in the dialect, so an operand that is a comparison keeps its parentheses. -/
def writeComparison (p : Parts) : Except Error Fragment :=
  let code := p.fieldText "OP"
  let symbol := ((comparisons.find? fun e => e.1 = code).map Prod.snd).getD "=="
  let operand := Precedence.relational.tighter
  expression (p.value "A" operand "0" ++ " " ++ symbol ++ " " ++ p.value "B" operand "0")
    .relational

/-- A comparison of two values. -/
def logicCompare : Form where
  name := "logic_compare"
  category := some "Logic"
  role := .expression
  template := .expression "%1 %2 %3" (some .boolean)
    [.value "A" none,
      .dropdown "OP"
        [("=", "EQ"), ("≠", "NEQ"), ("<", "LT"), ("≤", "LTE"), (">", "GT"), ("≥", "GTE")],
      .value "B" none]
    "Compare two values"
  pattern := .all
    [.atStart, .group 1 (.atLeastOneFew inLine), .blanks,
      .group 2 (.anyOf ["==", "!=", "<=", ">=", "<", ">"]),
      .blanks, .group 3 (.atLeastOne inLine), .atEnd]
  read := readComparison
  construction := .withArguments
  write := writeComparison

end ScriptBlocks.Dialect
