import ScriptBlocks.Proofs.Reading.Assignment
import ScriptBlocks.Proofs.Writing.Expression

/-!
# Writing an assignment

A block that sets a name is written as the line for the name and the text of its value.

## Main definitions

* `Dialect.Setting.sign` — what stands between the two

## Main statements

* `Workspace.renderWithin_sets` — the text of a block that sets a name
-/

namespace ScriptBlocks

open Expression Dialect

variable {k : Setting}

/-- Nothing binds looser than the loosest strength. -/
theorem Expression.Formula.wrap_loosest (strength : Precedence) (code : String) :
    Formula.wrap .loosest strength code = code :=
  if_neg fun h => absurd (UInt8.lt_iff_toNat_lt.1 h) (Nat.not_lt_zero _)

namespace Dialect.Setting

/-- What is written between the name and the value. -/
def sign : Setting → String
  | assign => " = "
  | change => " += "

theorem ofList_line (k : Setting) (name code : String) :
    .ofList (k.line name.toList code.toList ++ ['\n']) = name ++ k.sign ++ code ++ "\n" := by
  apply String.toList_inj.1
  cases k <;> simp [line, mark, sign]

theorem write_form {name code : String} {strength : Precedence} {p : Parts}
    (hname : p.variableName? = some name)
    (hvalue : p.values.find? k.slot = some (some ⟨code, strength⟩)) (hne : code ≠ "") :
    k.form.write p = .ok (.statement (name ++ k.sign ++ code ++ "\n")) := by
  have hvariable : variableName p = name := by
    rw [variableName, hname, Option.getD_some]
  have hcode (default : String) : p.value k.slot .loosest default = code :=
    (Parts.value_eq hvalue hne).trans (Formula.wrap_loosest ..)
  cases k with
  | assign =>
    have hvalue : p.value "VALUE" .loosest "0" = code := hcode "0"
    change Except.ok (Fragment.statement
      (variableName p ++ " = " ++ p.value "VALUE" .loosest "0" ++ "\n")) = _
    rw [hvariable, hvalue]
    rfl
  | change =>
    have hvalue : p.value "DELTA" .loosest "1" = code := hcode "1"
    change Except.ok (Fragment.statement
      (variableName p ++ " += " ++ p.value "DELTA" .loosest "1" ++ "\n")) = _
    rw [hvariable, hvalue]
    rfl

end Dialect.Setting

namespace Workspace

variable {w : Workspace} {o : WritingOptions} {p u : BlockId} {name code : String}

/-- Read with enough depth, a block that sets a name gives the line for what the name stands for and
its value. -/
theorem renderWithin_sets {depth : Nat} {strength : Precedence} (h : w.Sets k p name u)
    (hu : renderWithin vocabulary o w depth u = .ok (.expression code strength))
    (hcode : code ≠ "") : renderWithin vocabulary o w (depth + 1) p =
      .ok (.statement (w.resolveName name o.fallbackVariable ++ k.sign ++ code ++ "\n")) := by
  obtain ⟨b, hb, hform, hvar, hslots⟩ := h
  have hgated : k.form.gated = false := by
    cases k <;> rfl
  have hcontainer : k.form.isContainer = false := by
    cases k <;> rfl
  have hfield : k.form.variableField = some "VAR" := by
    cases k <;> rfl
  have hname : w.resolveName (b.fields.text "VAR") o.fallbackVariable =
      w.resolveName name o.fallbackVariable := by
    rw [Fields.text_eq hvar]
    rfl
  have hparts : ∃ parts, w.parts vocabulary o (renderWithin vocabulary o w depth) k.form b p =
        .ok parts ∧ parts.variableName? = some (w.resolveName name o.fallbackVariable) ∧
      parts.values.find? k.slot = some (some ⟨code, strength⟩) := by
    rw [Workspace.parts, hslots]
    simp only [List.foldlM_cons, List.foldlM_nil, addSlotText, operand, hu, hcontainer, hfield,
      Option.map_some, hname, bind, Except.bind, pure, Except.pure]
    exact ⟨_, rfl, rfl, OrderedMap.find?_insert_self ..⟩
  obtain ⟨parts, hparts, hname, hvalue⟩ := hparts
  rw [renderWithin, get_of_find? hb]
  simp only [bind, Except.bind, hform, k.get_form, hgated, Bool.false_and, Bool.false_eq_true,
    if_false, hparts]
  exact Setting.write_form hname hvalue hcode

theorem renderWithin_setting {depth : Nat} {strength : Precedence} (h : w.Sets k p name u)
    (hu : renderWithin vocabulary o w depth u = .ok (.expression code strength)) (hcode : code ≠ "")
    (hnames : w.variableNames = ∅) (hne : name ≠ "") (hkey : looksLikeKey name = false) :
    renderWithin vocabulary o w (depth + 1) p =
      .ok (.statement (name ++ k.sign ++ code ++ "\n")) := by
  rw [renderWithin_sets h hu hcode, resolveName_eq hnames hne hkey]

end Workspace

end ScriptBlocks
