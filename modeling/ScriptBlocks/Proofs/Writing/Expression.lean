import ScriptBlocks.Proofs.Expression.Grammar
import ScriptBlocks.Proofs.Expression.Tree
import ScriptBlocks.Proofs.Workspace.Connect
import ScriptBlocks.Writing

/-!
# Writing a formula

The tree of a formula is written as the text of the formula, whatever the options, as long as no name
in it stands for another one. Each block lies deeper than its owner, so the depth that the writer
allows is enough.

## Main statements

* `Workspace.write_holds` — the tree of a formula is written as the text of the formula
-/

namespace ScriptBlocks

open Expression

/-! ### The texts of the forms -/

theorem Fields.text_eq {fields : Fields} {name : String} {value : Value}
    (h : fields.find? name = some value) : fields.text name = value.toText := by
  rw [text, h]
  rfl

theorem Fields.textOr_eq {fields : Fields} {name default : String} {value : Value}
    (h : fields.find? name = some value) (hne : value.toText ≠ "") :
    fields.textOr name default = value.toText := by
  rw [textOr, text_eq h]
  exact if_neg hne

theorem Parts.value_eq {p : Parts} {slot default code : String} {required strength : Precedence}
    (h : p.values.find? slot = some (some ⟨code, strength⟩)) (hne : code ≠ "") :
    p.value slot required default = Formula.wrap required strength code := by
  rw [value, h]
  exact if_neg hne

theorem Value.toText_ofNat {n : Nat} (hn : n < integerLimit) :
    (Value.int (.ofNat n)).toText = toString n := by
  change toString (Int64.ofNat n).toInt = toString n
  rw [Int64.toInt_ofNat_of_lt hn]
  rfl

/-- The form of a leaf writes the text of the leaf. -/
theorem Expression.Leaf.write_form {l : Leaf} (hl : l.Valid) {p : Parts}
    (hfields : ∀ e ∈ l.fields, p.fields.find? e.1 = some e.2)
    (hname : ∀ s, l = .name s → p.variableName? = some s) :
    l.form.write p = .ok (.expression l.code l.precedence) := by
  have hfield {name default : String} {value : Value} (he : (name, value) ∈ l.fields)
      (hne : value.toText ≠ "") : p.fieldOr name default = value.toText :=
    Fields.textOr_eq (hfields _ he) hne
  cases l with
  | name s =>
    change Except.ok (Fragment.expression (p.variableName?.getD _) _) = _
    rw [hname s rfl]
    rfl
  | number value =>
    obtain ⟨negative, whole, places, hnumeral⟩ := Leaf.IsNumber.numeral hl
    have hne : value.toText ≠ "" := by
      intro h
      obtain ⟨u, htext, hu, -⟩ := hnumeral.plain
      rw [h] at htext
      exact hu (List.append_eq_nil_iff.1 htext.symm).2
    change Except.ok (Fragment.expression (p.fieldOr "NUM" "0")
      (if (p.fieldOr "NUM" "0").toList.head? = some '-' then .unary else .atomic)) = _
    rw [hfield List.mem_cons_self hne]
    rfl
  | acceleration axis =>
    have hne : (Value.string (.singleton axis)).toText ≠ "" := by
      rcases hl with rfl | rfl | rfl <;> decide
    change Except.ok (Fragment.expression ("accelerometer.get_" ++ p.fieldOr "AXIS" "x" ++ "()")
      .call) = _
    rw [hfield List.mem_cons_self hne]
    rfl
  | pin digits =>
    change Except.ok (Fragment.expression ("pin" ++ p.fieldOr "PIN" "0" ++ ".read_analog()")
      .call) = _
    rw [hfield List.mem_cons_self hl.1]
    rfl
  | truth b =>
    have htext : p.fieldText "BOOL" = (Value.string (if b then "TRUE" else "FALSE")).toText :=
      Fields.text_eq (hfields _ List.mem_cons_self)
    change Except.ok (Fragment.expression (if p.fieldText "BOOL" = "FALSE" then "False" else "True")
      .atomic) = _
    rw [htext]
    cases b <;> rfl
  | light x y =>
    have hne {n : Nat} (hn : n < integerLimit) : (Value.int (.ofNat n)).toText ≠ "" := by
      rw [Value.toText_ofNat hn, ne_eq, ← String.toList_eq_nil_iff, toList_toString_nat]
      exact Nat.toDigits_ne_nil
    change Except.ok (Fragment.expression ("led.point" ++ "(" ++ p.fieldOr "X" "0" ++ ", " ++
      p.fieldOr "Y" "0" ++ ")") .call) = _
    rw [hfield List.mem_cons_self (hne hl.1),
      hfield (List.mem_cons_of_mem _ List.mem_cons_self) (hne hl.2), Value.toText_ofNat hl.1,
      Value.toText_ofNat hl.2]
    rfl
  | button which =>
    have hne : (Value.string which).toText ≠ "" := by
      rcases hl with rfl | rfl | rfl <;> decide
    change Except.ok (Fragment.expression ("input.button_is_pressed(Button." ++
      p.fieldOr "BUTTON" "A" ++ ")") .call) = _
    rw [hfield List.mem_cons_self hne]
    rfl

/-- The form of an operator writes the texts of its operands around the symbol. -/
theorem Expression.Operator.write_form (op : Operator) {p : Parts} {left right : Operand}
    (hop : p.fields.find? "OP" = some (.string op.code))
    (hleft : p.values.find? "A" = some (some left)) (hright : p.values.find? "B" = some (some right))
    (hl : left.code ≠ "") (hr : right.code ≠ "") :
    op.form.write p = .ok (.expression
      (Formula.wrap op.strengths.1 left.precedence left.code ++ " " ++ op.symbol ++ " " ++
        Formula.wrap op.strengths.2 right.precedence right.code) op.precedence) := by
  have hcode : p.fieldText "OP" = op.code := Fields.text_eq hop
  have hlhs (required : Precedence) : p.value "A" required "0" =
      Formula.wrap required left.precedence left.code := Parts.value_eq hleft hl
  have hrhs (required : Precedence) : p.value "B" required "0" =
      Formula.wrap required right.precedence right.code := Parts.value_eq hright hr
  cases hcomparison : op.isComparison with
  | true =>
    rw [Operator.form, hcomparison, if_pos rfl]
    have hwrite : Dialect.logicCompare.write = Dialect.writeComparison := by rw [Dialect.logicCompare]
    rw [hwrite, Dialect.writeComparison, hcode]
    simp only [hlhs, hrhs, Operator.strengths, hcomparison, if_true]
    cases op <;> first | rfl | exact nomatch hcomparison
  | false =>
    rw [Operator.form, hcomparison, if_neg Bool.false_ne_true]
    have hwrite : Dialect.mathArithmetic.write = Dialect.writeArithmetic := by
      rw [Dialect.mathArithmetic]
    rw [hwrite, Dialect.writeArithmetic, hcode]
    simp only [hlhs, hrhs, Operator.strengths, hcomparison]
    cases op <;> first | rfl | exact nomatch hcomparison

theorem Expression.Formula.code_ne_empty {f : Formula} (hf : f.Valid) : f.code ≠ "" := by
  cases f with
  | leaf l =>
    intro h
    exact (Leaf.outline hf).chunk.ne_nil (String.toList_eq_nil_iff.2 h)
  | binary op f g =>
    rw [ne_eq, ← String.toList_eq_nil_iff, Formula.code]
    simp

/-! ### Trees -/

namespace Workspace

variable {w : Workspace} {o : WritingOptions} {id : BlockId} {f : Formula} {b : Block}

/-- A name that is no host's key stands for itself as long as no name is declared. -/
theorem resolveName_eq {name : String} (hnames : w.variableNames = ∅) (hne : name ≠ "")
    (hkey : looksLikeKey name = false) (fallback : String) : w.resolveName name fallback = name := by
  have hname : w.variableName? name = none := by
    rw [variableName?, hnames]
    rfl
  have hnot : ¬ (name = "" ∨ looksLikeKey name = true) := by
    rintro (h | h)
    · exact hne h
    · exact nomatch h.symm.trans hkey
  rw [resolveName, hname]
  exact if_neg hnot

/-- A block without slots is written from its fields and the name of its variable. -/
theorem parts_single (w : Workspace) (form : Form) (o : WritingOptions)
    (render : BlockId → Except Error Fragment) (id : BlockId) (hslots : b.slots.entries = []) :
    ∃ p, w.parts Dialect.vocabulary o render form b id = .ok p ∧ p.fields = b.fields ∧
      p.variableName? = form.variableField.map fun field =>
        w.resolveName (b.fields.text field) o.fallbackVariable := by
  rw [Workspace.parts, hslots]
  simp only [List.foldlM_nil, bind, Except.bind, pure, Except.pure]
  exact ⟨_, rfl, rfl, rfl⟩

theorem parts_leaf (o : WritingOptions) (render : BlockId → Except Error Fragment)
    (id : BlockId) {l : Leaf} (hslots : b.slots.entries = [])
    (hfields : ∀ e ∈ l.fields, b.fields.find? e.1 = some e.2)
    (hkeys : (Formula.leaf l).KeyFree) (hl : l.Valid) (hnames : w.variableNames = ∅) :
    ∃ p, w.parts Dialect.vocabulary o render l.form b id = .ok p ∧
      (∀ e ∈ l.fields, p.fields.find? e.1 = some e.2) ∧
      ∀ s, l = .name s → p.variableName? = some s := by
  obtain ⟨p, hparts, hsame, hvariable⟩ := w.parts_single l.form o render id hslots
  rw [← hsame] at hfields
  refine ⟨p, hparts, hfields, ?_⟩
  rintro s rfl
  have htext : b.fields.text "VAR" = s := by
    rw [← hsame]
    exact Fields.text_eq (hfields _ List.mem_cons_self)
  have hne : s ≠ "" := fun h => (Leaf.IsName.plain hl).2 (String.toList_eq_nil_iff.2 h)
  rw [hvariable]
  change some (w.resolveName (b.fields.text "VAR") o.fallbackVariable) = some s
  rw [htext, resolveName_eq hnames hne hkeys]

theorem parts_binary (w : Workspace) (o : WritingOptions)
    (render : BlockId → Except Error Fragment)
    (id : BlockId) (op : Operator) {check check' : Option Capability} {x y : BlockId}
    {left right : String} {p q : Precedence} (hslots : b.slots.entries =
      [("A", .value check (some x)), ("B", .value check' (some y))])
    (hx : render x = .ok (.expression left p)) (hy : render y = .ok (.expression right q)) :
    ∃ parts, w.parts Dialect.vocabulary o render op.form b id = .ok parts ∧
      parts.fields = b.fields ∧ parts.values.find? "A" = some (some ⟨left, p⟩) ∧
        parts.values.find? "B" = some (some ⟨right, q⟩) := by
  have hcontainer : op.form.isContainer = false := by
    cases op <;> rfl
  rw [Workspace.parts, hslots]
  simp only [List.foldlM_cons, List.foldlM_nil, addSlotText, operand, hx, hy, hcontainer, bind,
    Except.bind, pure, Except.pure]
  refine ⟨_, rfl, rfl, rfl, rfl⟩

/-- Read with enough depth, the tree of a formula gives the text of the formula. -/
theorem renderWithin_holds {depth : Nat} (h : Holds w.find? id f) (hvalid : f.Valid)
    (hkeys : f.KeyFree) (hnames : w.variableNames = ∅) (hdepth : f.height ≤ depth) :
    renderWithin Dialect.vocabulary o w depth id = .ok (.expression f.code f.strength) := by
  induction f generalizing id depth with
  | leaf l =>
    obtain ⟨b, hb, hform, hfields, hslots⟩ := h
    obtain ⟨d, rfl⟩ := Nat.exists_eq_add_of_le' hdepth
    obtain ⟨p, hparts, hp, hname⟩ := parts_leaf o
      (renderWithin Dialect.vocabulary o w d) id hslots hfields hkeys hvalid hnames
    have hgated : l.form.gated = false := by
      cases l <;> rfl
    rw [Formula.height, renderWithin, get_of_find? hb]
    simp only [bind, Except.bind, hform, l.get_form, hgated, Bool.false_and, hparts]
    exact Leaf.write_form hvalid hp hname
  | binary op f g ihf ihg =>
    obtain ⟨b, x, y, hb, hform, hop, hoperands, hf, hg⟩ := h
    obtain ⟨check, check', hslots⟩ := Block.operands?_eq_some.1 hoperands
    rw [Formula.height] at hdepth
    obtain ⟨d, rfl⟩ := Nat.exists_eq_add_of_le' (Nat.le_trans (Nat.le_add_left 1 _) hdepth)
    have hx : renderWithin Dialect.vocabulary o w d x = .ok (.expression f.code f.strength) :=
      ihf hf hvalid.1 hkeys.1 (by omega)
    have hy : renderWithin Dialect.vocabulary o w d y = .ok (.expression g.code g.strength) :=
      ihg hg hvalid.2 hkeys.2 (by omega)
    obtain ⟨p, hparts, hfields, hleft, hright⟩ := parts_binary w o
      (renderWithin Dialect.vocabulary o w d) id op hslots hx hy
    have hgated : op.form.gated = false := by
      cases op <;> rfl
    rw [← hfields] at hop
    have hwrite := op.write_form hop hleft hright (Formula.code_ne_empty hvalid.1)
      (Formula.code_ne_empty hvalid.2)
    rw [renderWithin, get_of_find? hb]
    simp only [bind, Except.bind, hform, op.get_form, hgated, Bool.false_and, hparts,
      Bool.false_eq_true, if_false, hwrite]
    rw [Formula.code, Formula.strength]

/-- Each block of a tree lies deeper than its owner, so a workspace is larger than any tree in it is
high. -/
theorem Consistent.height_add_depth_le (hw : w.Consistent) (h : Holds w.find? id f) :
    f.height + w.depth id ≤ w.size := by
  induction f generalizing id with
  | leaf l =>
    obtain ⟨b, hb, -⟩ := h
    have := hw.depth_lt_size (contains_of_find? hb)
    rw [Formula.height]
    omega
  | binary op f g ihf ihg =>
    obtain ⟨b, x, y, hb, -, -, hoperands, hf, hg⟩ := h
    obtain ⟨check, check', hslots⟩ := Block.operands?_eq_some.1 hoperands
    have hchild {slot : String} {check : Option Capability} {c : BlockId}
        (hslot : (slot, .value check (some c)) ∈ b.slots.entries) :
        w.depth c = w.depth id + 1 := by
      have hmem := Block.mem_children_of_slot (OrderedMap.find?_eq_some_iff.2 hslot) rfl
      exact hw.depth_of_parent? (hw.parent?_of_mem_children hb hmem)
    have hx : w.depth x = w.depth id + 1 := by
      have hmem : ("A", Slot.value check (some x)) ∈ b.slots.entries := by
        rw [hslots]
        exact List.mem_cons_self
      exact hchild hmem
    have hy : w.depth y = w.depth id + 1 := by
      have hmem : ("B", Slot.value check' (some y)) ∈ b.slots.entries := by
        rw [hslots]
        exact List.mem_cons_of_mem _ List.mem_cons_self
      exact hchild hmem
    have := ihf hf
    have := ihg hg
    rw [Formula.height]
    omega

theorem Consistent.height_le_size (hw : w.Consistent) (h : Holds w.find? id f) :
    f.height ≤ w.size :=
  Nat.le_trans (Nat.le_add_right _ _) (hw.height_add_depth_le h)

/-- The tree of a formula is written as the text of the formula. -/
theorem write_holds (hw : w.Consistent) (h : Holds w.find? id f) (hvalid : f.Valid)
    (hkeys : f.KeyFree) (hnames : w.variableNames = ∅) :
    w.write Dialect.vocabulary o id = .ok f.code := by
  have hheight := Nat.le_succ_of_le (hw.height_le_size h)
  rw [write, Workspace.render, renderWithin_holds h hvalid hkeys hnames hheight]
  rfl

end Workspace

end ScriptBlocks
