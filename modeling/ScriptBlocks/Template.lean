import ScriptBlocks.Value

/-!
# Templates

What a block of some form looks like: its label, its arguments and the way it connects. A new block
takes its slots, its connectors and its default field values from the template of its form.

## Main definitions

* `Capability` — the kind of value an expression gives or a slot takes
* `Shape` — how a block connects
* `Arg`, `Template` — the argument list of a form
-/

namespace ScriptBlocks

/-- The kind of value that an expression gives, or that a value slot takes. -/
inductive Capability where
  | number
  | string
  | boolean
deriving DecidableEq

namespace Capability

def name : Capability → String
  | number => "Number"
  | string => "String"
  | boolean => "Boolean"

/-- The name of a capability, empty for an unchecked side. -/
def nameOrEmpty (c : Option Capability) : String := (c.map name).getD ""

/-- Whether a slot takes an output. A side without a capability is unchecked and goes with
everything. -/
def compatible : (slot output : Option Capability) → Bool
  | some s, some o => s = o
  | _, _ => true

end Capability

/-- How a block connects to its surroundings. -/
inductive Shape where
  /-- A statement: `previous` lets it follow another one, `next` lets another one follow it. -/
  | statement (previous next : Bool)
  /-- An expression, which fills a value slot. -/
  | expression (output : Option Capability)
deriving DecidableEq

namespace Shape

def isExpression : Shape → Bool
  | expression _ => true
  | statement .. => false

def hasPrevious : Shape → Bool
  | statement previous _ => previous
  | expression _ => false

def hasNext : Shape → Bool
  | statement _ next => next
  | expression _ => false

end Shape

/-- One entry of a template's argument list. -/
inductive Arg where
  | number (name : String) (default : Binary64) (min max : Option Binary64)
  | slider (name : String) (default min max : Binary64)
  | text (name default : String)
  | multilineText (name default : String)
  /-- A choice among options, each a label and the value it stands for. -/
  | dropdown (name : String) (options : List (String × String))
  | ledMatrix (name default : String)
  | icon (name default : String)
  /-- A slot for one expression. -/
  | value (name : String) (check : Option Capability)
  /-- A slot for one chain of statements. -/
  | statement (name : String)
  /-- A line break. -/
  | dummy
deriving DecidableEq

namespace Arg

def name? : Arg → Option String
  | number name .. | slider name .. | text name _ | multilineText name _ | dropdown name _
  | ledMatrix name _ | icon name _ | value name _ | statement name => some name
  | dummy => none

/-- Whether the argument is a field; the others are slots and line breaks. -/
def isField : Arg → Bool
  | value .. | statement _ | dummy => false
  | _ => true

/-- The value a field argument starts from. A dropdown starts from its first option. -/
def defaultValue? : Arg → Option Value
  | number _ default .. | slider _ default .. => some (.ofNumber integerLimit default)
  | text _ default | multilineText _ default | ledMatrix _ default | icon _ default =>
    some (.string default)
  | dropdown _ options => options.head?.map fun o => .string o.2
  | value .. | statement _ | dummy => none

/-- The name and default of a field argument that has a default. -/
def default? (a : Arg) : Option (String × Value) := do
  return (← a.name?, ← a.defaultValue?)

/-- A number field without bounds. -/
def plainNumber (name : String) (default : Binary64) : Arg := number name default none none

/-- A number field with bounds. -/
def boundedNumber (name : String) (default min max : Binary64) : Arg :=
  number name default (some min) (some max)

end Arg

/-- The look of a form: a label with one numbered placeholder per argument, the arguments, the
connectors and a tooltip. -/
structure Template where
  message : String
  args : List Arg
  shape : Shape
  tooltip : String
deriving DecidableEq

namespace Template

def fieldArgs (t : Template) : List Arg := t.args.filter Arg.isField

/-- The value slots with their checks, in order. -/
def valueSlots (t : Template) : List (String × Option Capability) :=
  t.args.filterMap fun
    | .value name check => some (name, check)
    | _ => none

/-- The statement slots, in order. -/
def statementSlots (t : Template) : List String :=
  t.args.filterMap fun
    | .statement name => some name
    | _ => none

/-- A statement with both connectors. -/
def chained (message : String) (args : List Arg) (tooltip : String) : Template :=
  ⟨message, args, .statement true true, tooltip⟩

/-- A statement that nothing may precede. -/
def event (message : String) (args : List Arg) (tooltip : String) : Template :=
  ⟨message, args, .statement false true, tooltip⟩

/-- An expression with the given output. -/
def expression (message : String) (output : Option Capability) (args : List Arg)
    (tooltip : String) : Template :=
  ⟨message, args, .expression output, tooltip⟩

end Template

end ScriptBlocks
