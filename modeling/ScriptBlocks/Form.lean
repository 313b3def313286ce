import ScriptBlocks.Error
import ScriptBlocks.Fragment
import ScriptBlocks.Pattern.Search

/-!
# Forms

A form is one kind of block: its template, the pattern of the text it is read from, how field values
are read off a match, how blocks are built from field values, and how its text is written. A
vocabulary is an ordered list of forms with distinct names; the order decides which form takes a
line that several of them match.

## Main definitions

* `Form` — the description of a form
* `Vocabulary` — the forms in the order of their registration
* `Vocabulary.firstMatch`, `Vocabulary.expressionFor` — which form a text belongs to
-/

namespace ScriptBlocks

/-- What a form counts as when text is written. -/
inductive Role where
  | statement
  | expression
  /-- An entry point: gated forms leave text only beneath one, and it declares the variables that
  its body touches. -/
  | container
deriving DecidableEq

/-- How blocks are built from the field values read off a line. These are the ways of the library; a
host may also give a form a function of its own, which is told apart from the form
(`HostConstruct`). -/
inductive Construction where
  /-- One block with these fields. -/
  | bare
  /-- Fields named like value slots are source text: each is read as an expression for its slot. -/
  | withArguments
  /-- The field named like the slot is the value of a default literal, a block of form `form` with
  that value in `field`. Where the field is missing, `fallback` takes its place. -/
  | literal (slot form field : String) (fallback : Option Value)
deriving DecidableEq

/-- The description of a form. -/
structure Form where
  name : String
  category : Option String := none
  role : Role
  /-- Whether blocks of the form leave text only when enabled and beneath an entry point. -/
  gated : Bool := false
  template : Template
  pattern : Pattern
  /-- The field that names the variable which the form reads or writes. -/
  variableField : Option String := none
  /-- The field values given by a match. -/
  read : Capture → Except ReadFault Fields := fun _ => .ok ∅
  construction : Construction := .bare
  /-- The text of a block of the form. -/
  write : Parts → Except Error Fragment

namespace Form

def isContainer (f : Form) : Bool := f.role = .container

/-- The leftmost match of the form's pattern. -/
def matchIn (f : Form) (text : String) : Option Capture := f.pattern.search text

/-- The match of the form's pattern at the start of a text, if it covers the whole text. -/
def matchWhole (f : Form) (text : String) : Option Capture :=
  (f.pattern.matchStart text).filter Capture.isWhole

theorem matchWhole_eq (f : Form) (text : String) :
    f.matchWhole text = (f.matchIn text).filter Capture.isWhole :=
  f.pattern.filter_isWhole_matchStart text

/-- The field values given by a match, with the form named in the error. -/
def readFields (f : Form) (c : Capture) : Except Error Fields :=
  (f.read c).mapError (.unreadable f.name)

end Form

/-- Forms with distinct names, in the order of their registration. -/
structure Vocabulary where
  forms : List Form
  nodup : (forms.map Form.name).Nodup

namespace Vocabulary

def empty : Vocabulary := ⟨[], .nil⟩

instance : EmptyCollection Vocabulary := ⟨empty⟩

def find? (v : Vocabulary) (name : String) : Option Form := v.forms.find? fun f => f.name = name

def contains (v : Vocabulary) (name : String) : Bool := v.forms.any fun f => f.name = name

/-- The form of that name. -/
def get (v : Vocabulary) (name : String) : Except Error Form :=
  match v.find? name with
  | some f => .ok f
  | none => .error (.unknownForm name)

/-- Adds a form behind the others; its name must be new. -/
def register (v : Vocabulary) (f : Form) : Except Error Vocabulary :=
  if h : f.name ∈ v.forms.map Form.name then .error (.duplicateForm f.name)
  else .ok
    { forms := v.forms ++ [f]
      nodup := by
        rw [List.map_append, List.nodup_append]
        refine ⟨v.nodup, by simp, ?_⟩
        rintro x hx y hy rfl
        simp only [List.map_cons, List.map_nil, List.mem_singleton] at hy
        exact h (hy ▸ hx) }

/-- Adds forms one after the other. -/
def registerAll (v : Vocabulary) (forms : List Form) : Except Error Vocabulary :=
  forms.foldlM register v

/-- The forms whose patterns match somewhere in the text. -/
def matching (v : Vocabulary) (text : String) : List Form :=
  let chars := text.toList.toArray
  v.forms.filter fun f => (f.pattern.searchIn chars).isSome

/-- The first form whose pattern matches somewhere in the text, with the match. -/
def firstMatch (v : Vocabulary) (text : String) : Option (Form × Capture) :=
  let chars := text.toList.toArray
  v.forms.findSome? fun f => (f.pattern.searchIn chars).map (f, ·)

/-- The first expression form whose pattern covers the whole text, with the match. -/
def expressionFor (v : Vocabulary) (text : String) : Option (Form × Capture) :=
  let chars := text.toList.toArray
  (v.forms.filter fun f => f.role = .expression).findSome? fun f =>
    ((f.pattern.matchStartOf chars).filter Capture.isWhole).map (f, ·)

/-! The text is taken apart once for all forms; each of them is matched as it is on its own. -/

theorem firstMatch_eq (v : Vocabulary) (text : String) :
    v.firstMatch text = v.forms.findSome? fun f => (f.matchIn text).map (f, ·) := rfl

theorem expressionFor_eq (v : Vocabulary) (text : String) :
    v.expressionFor text =
      (v.forms.filter fun f => f.role = .expression).findSome? fun f =>
        (f.matchWhole text).map (f, ·) := rfl

end Vocabulary

end ScriptBlocks
