import ScriptBlocks.Layout
import ScriptBlocks.Value

/-!
# Fragments of source text

The text of a block is put together from parts: its fields, the texts of the expressions in its
value slots, the bodies of its statement slots, the variable it names and, for an entry point, the
variables its body touches. An expression remembers how tightly it binds, so that whoever embeds it
can put parentheses around it.

## Main definitions

* `Precedence` — binding strength
* `Fragment` — the text of a block
* `Parts` — what the text of a block is put together from
-/

namespace ScriptBlocks

/-- The binding strength of an expression; more binds tighter. -/
structure Precedence where
  level : UInt8
deriving DecidableEq

namespace Precedence

def atomic : Precedence := ⟨100⟩
def call : Precedence := ⟨90⟩
def exponent : Precedence := ⟨80⟩
def unary : Precedence := ⟨70⟩
def multiplicative : Precedence := ⟨60⟩
def additive : Precedence := ⟨50⟩
def relational : Precedence := ⟨40⟩

/-- The strength that every expression has. -/
def loosest : Precedence := ⟨0⟩

/-- The next strength up, for the side of an operator on which it does not associate. The greatest
strength has none above it. -/
def tighter (p : Precedence) : Precedence := ⟨if p.level = 255 then 255 else p.level + 1⟩

instance : LT Precedence := ⟨fun p q => p.level < q.level⟩
instance (p q : Precedence) : Decidable (p < q) := inferInstanceAs (Decidable (p.level < q.level))

end Precedence

/-- The text of a block. -/
inductive Fragment where
  /-- Complete lines, possibly none. -/
  | statement (code : String)
  | expression (code : String) (precedence : Precedence)
deriving DecidableEq

namespace Fragment

def code : Fragment → String
  | statement code => code
  | expression code _ => code

/-- The text on lines of its own: an expression becomes one line. -/
def asLines : Fragment → String
  | statement code => code
  | expression code _ => code ++ "\n"

end Fragment

/-- How source text is written. -/
structure WritingOptions where
  /-- One level of indentation. -/
  indent : String := "    "
  /-- The statement that stands for an empty body. -/
  emptyBody : String := "pass"
  /-- The name of a variable that cannot be told. -/
  fallbackVariable : String := "x"
deriving DecidableEq

/-- An expression's text with its binding strength. -/
structure Operand where
  code : String
  precedence : Precedence
deriving DecidableEq

/-- What the text of a block is put together from. Of the block itself only the fields are among the
parts: its id, its links and its flags are left out, so a form whose text depends on those is not
described here. -/
structure Parts where
  fields : Fields
  options : WritingOptions
  /-- The value slots with the texts of their expressions. -/
  values : OrderedMap String (Option Operand) := ∅
  /-- The statement slots with their texts, already indented by one level. -/
  bodies : OrderedMap String String := ∅
  /-- The variables that an entry point's body touches. -/
  globals : List String := []
  /-- The name of the variable that the block refers to. -/
  variableName? : Option String := none

namespace Parts

def hasSlot (p : Parts) (slot : String) : Bool := p.values.contains slot || p.bodies.contains slot

/-- The expression in a slot, in parentheses if it binds looser than required; `default` if there
is none or it has no text. -/
def value (p : Parts) (slot : String) (required : Precedence) (default : String) : String :=
  match p.values.find? slot with
  | some (some ⟨code, precedence⟩) =>
    if code = "" then default
    else if precedence < required then "(" ++ code ++ ")"
    else code
  | _ => default

/-- The body in a statement slot: one level in and never empty. -/
def body (p : Parts) (slot : String) : String :=
  Layout.block ((p.bodies.find? slot).getD "") p.options.indent p.options.emptyBody

/-- The line that declares the variables of an entry point, if there are any. -/
def globalsLine (p : Parts) : String :=
  if p.globals = [] then "" else p.options.indent ++ "global " ++ ", ".intercalate p.globals ++ "\n"

/-- The text of a field, or `default` when that is empty. -/
def fieldOr (p : Parts) (name default : String) : String := p.fields.textOr name default

/-- The text of a field. -/
def fieldText (p : Parts) (name : String) : String := p.fields.text name

end Parts

end ScriptBlocks
