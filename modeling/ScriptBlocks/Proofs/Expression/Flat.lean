import ScriptBlocks.Proofs.Dialect.Shape
import ScriptBlocks.Proofs.Expression.Regroup

/-!
# Flat arithmetic

Arithmetic without parentheses and signs is a row of operands with operators between them. There is
one tree whose text it is: at the end of the row, each operator takes over from those in front of it
what these leave to a right operand, and no more.

## Main definitions

* `Expression.Atom`, `Expression.Flat` — the operands, and the row
* `Flat.text`, `Flat.formula` — its text and its tree
* `Formula.extend` — a tree with one more operation at its end
* `Formula.IsFlat` — trees of arithmetic that need no parentheses

## Main statements

* `Formula.IsFlat.extend` — one more operation leaves the tree flat, and stands behind its text
* `Flat.code_formula` — the text of the tree is the row
-/

namespace ScriptBlocks.Expression

/-- An operand of flat arithmetic: an integer in its canonical form, or a name. -/
inductive Atom where
  | literal (n : Fin (powerOfTen 15))
  | name (s : String) (hname : Leaf.IsName s) (hkey : looksLikeKey s = false)

namespace Atom

def text : Atom → String
  | literal n => toString n.val
  | name s .. => s

def leaf : Atom → Leaf
  | literal n => .number (.int (.ofInt n))
  | name s .. => .name s

end Atom

/-- An operator of arithmetic with the operand behind it. -/
structure Step where
  op : Operator
  arithmetic : op.isComparison = false
  operand : Atom

/-- Flat arithmetic, with at least one operator. -/
structure Flat where
  first : Atom
  rest : List Step
  ne_nil : rest ≠ []

namespace Formula

/-- The formula with one more operation at the end of its text. The operator takes the right operand
of the formula for itself if that may be such an operation. -/
def extend (op : Operator) (l : Leaf) : Formula → Formula
  | leaf a => binary op (leaf a) (leaf l)
  | binary op' a b =>
    if op.level ≤ op'.right then binary op' a (extend op l b)
    else binary op (binary op' a b) (leaf l)

/-- No operand needs parentheses, and no number has a sign. -/
def Plain : Formula → Prop
  | leaf l => l.precedence = .atomic
  | binary op a b => ¬ a.strength < op.strengths.1 ∧ ¬ b.strength < op.strengths.2 ∧
      a.Plain ∧ b.Plain

/-- The formula is a number, put together from leaves that are read off their texts, and it is written
without parentheses. -/
structure IsFlat (f : Formula) : Prop where
  plain : f.Plain
  wellTyped : f.WellTyped
  isNumber : Capability.compatible (some .number) f.output = true
  valid : f.Valid
  keyFree : f.KeyFree

end Formula

namespace Step

/-- The operator and the operand behind a text, with blanks around the operator. -/
def write (s : String) (step : Step) : String :=
  s ++ " " ++ step.op.symbol ++ " " ++ step.operand.text

def extend (f : Formula) (step : Step) : Formula := f.extend step.op step.operand.leaf

end Step

namespace Flat

/-- The operands with the operators between them. -/
def text (t : Flat) : String := t.rest.foldl Step.write t.first.text

/-- The tree, built from the front of the row on. -/
def formula (t : Flat) : Formula := t.rest.foldl Step.extend (.leaf t.first.leaf)

end Flat

variable {op op' : Operator} {l : Leaf} {f g : Formula} {s : List Char} {n : Nat}

/-! ### Operands -/

theorem Atom.code_leaf (a : Atom) : a.leaf.code = a.text := by
  cases a with
  | literal n =>
    refine (Value.toText_ofInt (i := n.val) ?_).trans rfl
    exact n.isLt
  | name s hname hkey => rfl

theorem Atom.isFlat_leaf (a : Atom) : (Formula.leaf a.leaf).IsFlat := by
  cases a with
  | literal n =>
    have hnumber : (Leaf.number (.int (.ofInt n.val))).Valid :=
      Leaf.isNumber_ofInt (i := n.val) n.isLt
    refine ⟨?_, trivial, rfl, hnumber, trivial⟩
    have hdigit : (toString n.val).toList.head? ≠ some '-' := by
      intro h
      rw [toList_toString_nat] at h
      exact absurd (isDigit_of_mem_toDigits (List.mem_of_mem_head? h)) (by decide)
    refine if_neg ?_
    rwa [Value.toText_ofInt (i := n.val) n.isLt]
  | name s hname hkey => exact ⟨rfl, trivial, rfl, hname, hkey⟩

/-- Operands are made of letters, digits and underscores. -/
theorem Atom.isWord_of_mem_text (a : Atom) : ∀ c ∈ a.text.toList, Text.isWord c = true := by
  cases a with
  | literal n =>
    intro c hc
    rw [text, toList_toString_nat] at hc
    refine Text.isWord_of_ascii ?_
    rw [Char.isAlphanum, isDigit_of_mem_toDigits hc, Bool.or_true]
  | name s hname hkey =>
    have hidentifier : Dialect.IsIdentifier s.toList := hname.identifier
    exact hidentifier.isWord

namespace Formula

/-! ### One more operation -/

theorem not_lt_of_level_le_right (h : op.level ≤ op'.right) :
    ¬ op.precedence < op'.strengths.2 := by
  cases op <;> cases op' <;> first | decide | exact absurd h (by decide)

theorem not_lt_of_right_lt_level (hop : op.isComparison = false) (h : ¬ op.level ≤ op'.right) :
    ¬ op'.precedence < op.strengths.1 := by
  cases op <;> cases op' <;>
    first | decide | exact absurd (by decide) h | exact nomatch hop

theorem check_of_arithmetic (hop : op.isComparison = false) :
    op.check = some .number ∧ op.output = some .number := by
  cases op <;> first | exact ⟨rfl, rfl⟩ | exact nomatch hop

theorem arithmetic_of_output (h : Capability.compatible (some .number) op.output = true) :
    op.isComparison = false := by
  cases op <;> first | rfl | exact nomatch h

/-- At the top of a formula with one more operation is that operation or what was there. -/
theorem exists_extend_eq (op : Operator) (l : Leaf) (f : Formula) :
    ∃ op' a b, f.extend op l = binary op' a b ∧
      (op' = op ∨ op'.precedence = f.strength ∧ op'.output = f.output) := by
  cases f with
  | leaf a => exact ⟨op, leaf a, leaf l, rfl, .inl rfl⟩
  | binary op' a b =>
    rw [extend]
    split
    · exact ⟨op', a, _, rfl, .inr ⟨rfl, rfl⟩⟩
    · exact ⟨op, _, _, rfl, .inl rfl⟩

theorem code_of_plain {a b : Formula} (h : (binary op a b).Plain) :
    (binary op a b).code = a.code ++ " " ++ op.symbol ++ " " ++ b.code := by
  rw [code, wrap_of_not_lt h.1, wrap_of_not_lt h.2.1]

theorem plain_extend (hop : op.isComparison = false) (hl : l.precedence = .atomic) (hf : f.Plain) :
    (f.extend op l).Plain := by
  have hleaf (op' : Operator) : ¬ l.precedence < op'.strengths.1 ∧ ¬ l.precedence < op'.strengths.2 := by
    rw [hl]
    cases op' <;> decide
  induction f with
  | leaf a =>
    have ha : ¬ a.precedence < op.strengths.1 := by
      rw [show a.precedence = .atomic from hf]
      cases op <;> decide
    exact ⟨ha, (hleaf op).2, hf, hl⟩
  | binary op' a b iha ihb =>
    obtain ⟨ha, hb, haplain, hbplain⟩ := id hf
    rw [extend]
    split
    · next hright =>
      refine ⟨ha, ?_, haplain, ihb hbplain⟩
      obtain ⟨op'', c, d, heq, htop⟩ := exists_extend_eq op l b
      rw [heq, strength]
      rcases htop with rfl | ⟨hsame, -⟩
      · exact not_lt_of_level_le_right hright
      · rwa [hsame]
    · next hleft => exact ⟨not_lt_of_right_lt_level hop hleft, (hleaf op).2, hf, hl⟩

/-- The operator and its operand stand behind the text. -/
theorem code_extend (hop : op.isComparison = false) (hl : l.precedence = .atomic) (hf : f.Plain) :
    (f.extend op l).code = f.code ++ " " ++ op.symbol ++ " " ++ l.code := by
  induction f with
  | leaf a => exact code_of_plain (plain_extend hop hl hf)
  | binary op' a b iha ihb =>
    have hplain := plain_extend hop hl hf
    rw [extend] at hplain ⊢
    split
    · next hright =>
      rw [if_pos hright] at hplain
      rw [code_of_plain hplain, ihb hf.2.2.2, code_of_plain hf]
      simp only [String.append_assoc]
    · next hleft =>
      rw [if_neg hleft] at hplain
      rw [code_of_plain hplain]
      rfl

theorem isNumber_extend (hop : op.isComparison = false)
    (hf : Capability.compatible (some .number) f.output = true) :
    Capability.compatible (some .number) (f.extend op l).output = true := by
  obtain ⟨op', a, b, heq, htop⟩ := exists_extend_eq op l f
  rw [heq, output]
  rcases htop with rfl | ⟨-, hsame⟩
  · rw [(check_of_arithmetic hop).2]
    rfl
  · rwa [hsame]

theorem wellTyped_extend (hop : op.isComparison = false) (hf : f.WellTyped)
    (hnumber : Capability.compatible (some .number) f.output = true)
    (hl : Capability.compatible (some .number) l.output = true) : (f.extend op l).WellTyped := by
  obtain ⟨hcheck, -⟩ := check_of_arithmetic hop
  rw [← hcheck] at hl
  induction f with
  | leaf a =>
    rw [← hcheck] at hnumber
    exact ⟨hnumber, hl, trivial, trivial⟩
  | binary op' a b iha ihb =>
    obtain ⟨ha, hb, hatyped, hbtyped⟩ := id hf
    obtain ⟨hcheck', -⟩ := check_of_arithmetic (arithmetic_of_output hnumber)
    rw [extend]
    split
    · rw [hcheck'] at hb
      refine ⟨ha, ?_, hatyped, ihb hbtyped hb⟩
      rw [hcheck']
      exact isNumber_extend hop hb
    · rw [← hcheck] at hnumber
      exact ⟨hnumber, hl, hf, trivial⟩

theorem valid_extend (hf : f.Valid) (hl : l.Valid) : (f.extend op l).Valid := by
  induction f with
  | leaf a => exact ⟨hf, hl⟩
  | binary op' a b iha ihb =>
    rw [extend]
    split
    · exact ⟨hf.1, ihb hf.2⟩
    · exact ⟨hf, hl⟩

theorem keyFree_extend (hf : f.KeyFree) (hl : (leaf l).KeyFree) : (f.extend op l).KeyFree := by
  induction f with
  | leaf a => exact ⟨hf, hl⟩
  | binary op' a b iha ihb =>
    rw [extend]
    split
    · exact ⟨hf.1, ihb hf.2⟩
    · exact ⟨hf, hl⟩

/-- One more operation leaves a formula flat. -/
theorem IsFlat.extend (hf : f.IsFlat) (hop : op.isComparison = false) (hl : (leaf l).IsFlat) :
    (f.extend op l).IsFlat where
  plain := plain_extend hop hl.plain hf.plain
  wellTyped := wellTyped_extend hop hf.wellTyped hf.isNumber hl.isNumber
  isNumber := isNumber_extend hop hf.isNumber
  valid := valid_extend hf.valid hl.valid
  keyFree := keyFree_extend hf.keyFree hl.keyFree

end Formula

/-! ### Rows -/

/-- What is put behind a flat formula, step by step, is written behind its text. -/
theorem foldl_extend (rest : List Step) (hf : f.IsFlat) :
    (rest.foldl Step.extend f).IsFlat ∧
      (rest.foldl Step.extend f).code = rest.foldl Step.write f.code := by
  induction rest generalizing f with
  | nil => exact ⟨hf, rfl⟩
  | cons step rest ih =>
    obtain ⟨op, hop, a⟩ := step
    obtain ⟨hflat, hcode⟩ := ih (hf.extend hop a.isFlat_leaf)
    refine ⟨hflat, hcode.trans ?_⟩
    rw [Formula.code_extend hop a.isFlat_leaf.plain hf.plain, Atom.code_leaf]
    rfl

namespace Flat

theorem isFlat_formula (t : Flat) : t.formula.IsFlat :=
  (foldl_extend t.rest t.first.isFlat_leaf).1

/-- The text of the tree is the row. -/
theorem code_formula (t : Flat) : t.formula.code = t.text := by
  refine (foldl_extend t.rest t.first.isFlat_leaf).2.trans ?_
  rw [Formula.code, Atom.code_leaf]
  rfl

/-- At the top of the tree is an operation. -/
theorem exists_formula_eq (t : Flat) : ∃ op a b, t.formula = .binary op a b := by
  have hfold (rest : List Step) (op : Operator) (a b : Formula) :
      ∃ op' a' b', rest.foldl Step.extend (.binary op a b) = .binary op' a' b' := by
    induction rest generalizing op a b with
    | nil => exact ⟨op, a, b, rfl⟩
    | cons step rest ih =>
      obtain ⟨op', c, d, heq, -⟩ := Formula.exists_extend_eq step.op step.operand.leaf (.binary op a b)
      rw [List.foldl_cons, Step.extend, heq]
      exact ih op' c d
  obtain ⟨first, rest, hne⟩ := t
  cases rest with
  | nil => exact absurd rfl hne
  | cons step rest => exact hfold rest step.op (.leaf first.leaf) (.leaf step.operand.leaf)

theorem mem_symbol (hop : op.isComparison = false) :
    ∀ c ∈ op.symbol.toList, c ∈ [' ', '+', '-', '*', '/'] := by
  revert hop
  cases op <;> decide

/-- In the row there are letters, digits and underscores, blanks and the signs of the operators. -/
theorem mem_text (t : Flat) : ∀ c ∈ t.text.toList,
    Text.isWord c = true ∨ c ∈ [' ', '+', '-', '*', '/'] := by
  have hfold (rest : List Step) (s : String)
      (hs : ∀ c ∈ s.toList, Text.isWord c = true ∨ c ∈ [' ', '+', '-', '*', '/']) :
      ∀ c ∈ (rest.foldl Step.write s).toList,
        Text.isWord c = true ∨ c ∈ [' ', '+', '-', '*', '/'] := by
    induction rest generalizing s with
    | nil => exact hs
    | cons step rest ih =>
      refine ih _ fun c hc => ?_
      simp only [Step.write, String.toList_append, List.mem_append] at hc
      rcases hc with (((hc | hc) | hc) | hc) | hc
      · exact hs c hc
      · exact .inr (by rw [List.mem_singleton.1 hc]; decide)
      · exact .inr (mem_symbol step.arithmetic c hc)
      · exact .inr (by rw [List.mem_singleton.1 hc]; decide)
      · exact .inl (step.operand.isWord_of_mem_text c hc)
  exact hfold t.rest t.first.text fun c hc => .inl (t.first.isWord_of_mem_text c hc)

end Flat

/-! ### The text of an operation -/

/-- Where no parentheses stand around it, an operation is read off its operands. -/
theorem Reads.exists_operands {a b : Formula} (h : Reads n s (.binary op a b))
    (hs : s.head? ≠ some '(') : ∃ u v x y, s = u ++ (x ++ (op.symbol.toList ++ (y ++ v))) ∧
      Blanks x ∧ Blanks y ∧ Reads op.left u a ∧ Reads op.right v b := by
  cases h with
  | paren n ha hb h => exact absurd rfl hs
  | binary op hn ha hb hf hg => exact ⟨_, _, _, _, rfl, ha, hb, hf, hg⟩

end ScriptBlocks.Expression
