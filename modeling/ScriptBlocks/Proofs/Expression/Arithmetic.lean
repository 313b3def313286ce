import ScriptBlocks.Proofs.Dialect.Recognition

/-!
# Arithmetic with signs

In the dialect a sign binds looser than a power on its right: what stands behind it is negated as a
whole. A reader that takes the sign for a part of the literal gets the sum, the product or the power
of the same operands, but with the sign at the first literal.

## Main definitions

* `Expression.Arithmetic`, `Arithmetic.value` — arithmetic and its value
* `Arithmetic.Parses` — the texts of the dialect
* `Arithmetic.formula` — the formula with the signs at the literals

## Main statements

* `Arithmetic.Parses.reads` — the text is read as that formula
* `Arithmetic.value_formula` — the value is the same where signs stand in front of literals only
-/

namespace ScriptBlocks.Expression

/-- An arithmetic expression of the dialect. -/
inductive Arithmetic where
  | name (s : String)
  | literal (n : Fin (powerOfTen 15))
  | negate (a : Arithmetic)
  | binary (op : Operator) (a b : Arithmetic)

namespace Arithmetic

/-- The value where the names have the values given by `env`. -/
def value (ops : Formula.Meaning) (env : String → ℚ) : Arithmetic → Option ℚ
  | name s => some (env s)
  | literal n => some n.val
  | negate a => (a.value ops env).map fun x => -x
  | binary op a b => do ops op (← a.value ops env) (← b.value ops env)

/-- The text `s` is the expression, and no operator outside its parentheses is looser than level `n`.
A sign stands in front of a literal, but it binds looser than a power that starts with the literal,
so it cannot stand where a tighter level is asked for. -/
inductive Parses : Nat → List Char → Arithmetic → Prop where
  | name (n : Nat) {s : String} (hs : Leaf.IsName s) : Parses n s.toList (.name s)
  | literal (n : Nat) (k : Fin (powerOfTen 15)) : Parses n (Nat.toDigits 10 k) (.literal k)
  | paren (n : Nat) {m : Nat} {a s b : List Char} {e : Arithmetic} (ha : Blanks a) (hb : Blanks b)
    (h : Parses m s e) : Parses n ('(' :: (a ++ (s ++ (b ++ [')'])))) e
  | negate {n : Nat} {s : List Char} {e : Arithmetic} (hn : 1 ≤ n)
    (hdigit : ∃ c, s.head? = some c ∧ c.isDigit = true) (h : Parses 1 s e) :
    Parses n ('-' :: s) (.negate e)
  | binary {n : Nat} (op : Operator) {a b s t : List Char} {e e' : Arithmetic} (hn : op.level ≤ n)
    (hop : op.isComparison = false) (ha : Blanks a) (hb : Blanks b) (hs : Parses op.left s e)
    (ht : Parses op.right t e') :
    Parses n (s ++ (a ++ (op.symbol.toList ++ (b ++ t)))) (.binary op e e')

/-- The formula for the expression, or for its negation. A sign goes to the first literal of what it
stands in front of. -/
def formula (negative : Bool) : Arithmetic → Formula
  | name s => .leaf (.name s)
  | literal n => .leaf (.number (.int (.ofInt (if negative then -(n : Int) else n))))
  | negate a => a.formula true
  | binary op a b => .binary op (a.formula negative) (b.formula false)

/-- Each sign belongs to a literal on its own. -/
def SignsLiterals : Arithmetic → Prop
  | name _ | literal _ | negate (literal _) => True
  | negate _ => False
  | binary _ a b => a.SignsLiterals ∧ b.SignsLiterals

instance decidableSignsLiterals : (e : Arithmetic) → Decidable e.SignsLiterals
  | name _ | literal _ | negate (literal _) => .isTrue trivial
  | negate (name _) | negate (negate _) | negate (binary ..) => .isFalse id
  | binary _ a b =>
    have := decidableSignsLiterals a
    have := decidableSignsLiterals b
    inferInstanceAs (Decidable (a.SignsLiterals ∧ b.SignsLiterals))

/-- The value of a leaf of arithmetic. -/
def leafValue (env : String → ℚ) : Leaf → ℚ
  | .name s => env s
  | .number (.int i) => i.toInt
  | _ => 0

variable {n : Nat} {s : List Char} {e : Arithmetic}

/-! ### Reading -/

theorem spelled_literal (negative : Bool) (k : Fin (powerOfTen 15)) :
    (Leaf.number (.int (.ofInt (if negative then -(k : Int) else k)))).Spelled
      ((if negative then ['-'] else []) ++ Nat.toDigits 10 k) :=
  .numeral (Text.isNumeral_of_digits negative (fun _ => isDigit_of_mem_toDigits) Nat.toDigits_ne_nil)
    (Dialect.number_toDigits negative k.isLt)

namespace Parses

/-- The text is read as the formula. With a sign in front, a text that starts with a digit is read as
the formula for the negation. -/
theorem reads_signed (h : e.Parses n s) : Reads n s (e.formula false) ∧
    (n ≤ 1 → (∃ c, s.head? = some c ∧ c.isDigit = true) → Reads n ('-' :: s) (e.formula true)) := by
  induction h with
  | @name n s hs =>
    refine ⟨.leaf n (.code (l := .name s) hs), fun hn ⟨c, hc, hdigit⟩ => ?_⟩
    obtain ⟨d, ds, hd, halpha, -⟩ := hs.identifier
    rw [hd] at hc
    obtain rfl := Option.some.inj hc
    obtain ⟨-, hnot⟩ := Dialect.isDigit_eq_false_of_isAlpha halpha
    exact nomatch hnot.symm.trans (Text.isDigit_of_ascii hdigit)
  | literal n k =>
    exact ⟨.leaf n (spelled_literal false k), fun _ _ => .leaf n (spelled_literal true k)⟩
  | paren n ha hb h ih =>
    refine ⟨.paren n ha hb ih.1, fun _ ⟨c, hc, hdigit⟩ => ?_⟩
    obtain rfl := Option.some.inj hc
    exact absurd hdigit (by decide)
  | negate hn hdigit h ih =>
    refine ⟨(ih.2 (Nat.le_refl 1) hdigit).mono hn, fun _ ⟨c, hc, hdigit⟩ => ?_⟩
    obtain rfl := Option.some.inj hc
    exact absurd hdigit (by decide)
  | @binary n op a b s t e e' hn hop ha hb hs ht ihs iht =>
    refine ⟨.binary op hn ha hb ihs.1 iht.1, fun hle ⟨c, hc, hdigit⟩ => ?_⟩
    -- only a power is as tight as that, and a sign does not change the level of its base
    have hleft : op.left ≤ 1 := by
      have := op.left_le_level
      omega
    obtain ⟨ops, hchunk, -⟩ := ihs.1.chunk
    rw [List.head?_append_of_ne_nil _ hchunk.ne_nil] at hc
    exact .binary op hn ha hb (ihs.2 hleft ⟨c, hc, hdigit⟩) iht.1

/-- A text of the dialect is read as the formula with the signs at the literals. -/
theorem reads (h : e.Parses n s) : Reads n s (e.formula false) := h.reads_signed.1

/-- The operands of arithmetic go into the slots for numbers. -/
theorem wellTyped (h : e.Parses n s) (negative : Bool) : (e.formula negative).WellTyped ∧
    Capability.compatible (some .number) (e.formula negative).output = true := by
  induction h generalizing negative with
  | name n hs => exact ⟨trivial, rfl⟩
  | literal n k => exact ⟨trivial, rfl⟩
  | paren n ha hb h ih => exact ih negative
  | negate hn hdigit h ih => exact ih true
  | @binary n op a b s t e e' hn hop ha hb hs ht ihs iht =>
    have hcheck : op.check = some .number := by
      rw [Operator.check, hop]
      rfl
    have houtput : op.output = some .number := by
      rw [Operator.output, hop]
      rfl
    refine ⟨⟨?_, ?_, (ihs negative).1, (iht false).1⟩, ?_⟩
    · rw [hcheck]
      exact (ihs negative).2
    · rw [hcheck]
      exact (iht false).2
    · change Capability.compatible _ op.output = true
      rw [houtput]
      rfl

end Parses

/-! ### Values -/

theorem value_literal (ops : Formula.Meaning) (env : String → ℚ) (negative : Bool)
    (k : Fin (powerOfTen 15)) : ((literal k).formula negative).value ops (leafValue env) =
      some (if negative then -(k.val : ℚ) else k.val) := by
  have hk := k.isLt
  have hlimit : k.val < 9223372036854775808 := Nat.lt_trans hk (by decide)
  have hrange : (Int64.ofInt (if negative then -(k : Int) else k)).toInt =
      if negative then -(k : Int) else k := by
    refine Int64.toInt_ofInt_of_le ?_ ?_ <;> split <;> omega
  rw [formula, Formula.value, leafValue, hrange]
  cases negative with
  | false => simp
  | true => simp

/-- Where each sign belongs to a literal on its own, the formula has the value of the expression. -/
theorem value_formula (ops : Formula.Meaning) (env : String → ℚ) (h : e.SignsLiterals) :
    (e.formula false).value ops (leafValue env) = e.value ops env := by
  induction e with
  | name s => rfl
  | literal n => exact value_literal ops env false n
  | negate a ih =>
    cases a with
    | literal k => exact value_literal ops env true k
    | name s => exact h.elim
    | negate a => exact h.elim
    | binary op a b => exact h.elim
  | binary op a b iha ihb =>
    rw [formula, Formula.value, iha h.1, ihb h.2, value]

end Arithmetic

end ScriptBlocks.Expression
