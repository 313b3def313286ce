import ScriptBlocks.Proofs.Expression.Grammar

/-!
# Regrouping

The writer puts no parentheses around the right operand of a sum or a product that binds as tightly
as the operation, so the text of `a + (b - c)` is read as `(a + b) - c`. Regrouping a formula in this
way changes neither its text nor its value, and what comes out is what its text is read as.

## Main definitions

* `Operator.Absorbs` — which operators on the right are regrouped
* `Formula.regroup` — the formula that the text is read as
* `Formula.Grouped` — nothing is left to regroup

## Main statements

* `Formula.code_regroup`, `Formula.value_regroup` — the text and the value stay
* `Formula.reads_regroup` — the text is read as the regrouped formula
-/

namespace ScriptBlocks.Expression

/-- Whether an operation with this operator takes the first operand of one with `op'` on its right
for itself. -/
def Operator.absorbs (op op' : Operator) : Bool :=
  (op = .add ∨ op = .multiply) ∧ op'.level = op.level

namespace Formula

/-- An operation, with the left ends of a right operand drawn into it. -/
def graft (op : Operator) (a : Formula) : Formula → Formula
  | leaf l => binary op a (leaf l)
  | binary op' b c =>
    if op.absorbs op' then binary op' (graft op a b) c else binary op a (binary op' b c)

/-- The formula with all sums and products grouped to the left. -/
def regroup : Formula → Formula
  | leaf l => leaf l
  | binary op a b => graft op a.regroup b.regroup

/-- No right operand is absorbed by its operation. -/
def Grouped : Formula → Prop
  | leaf _ => True
  | binary op a b => a.Grouped ∧ b.Grouped ∧ ∀ op' c d, b = binary op' c d → op.absorbs op' = false

variable {op op' : Operator} {a b f : Formula}

/-! ### Absorbing operators -/

theorem absorbs_cases (h : op.absorbs op' = true) :
    op = .add ∧ (op' = .add ∨ op' = .subtract) ∨
      op = .multiply ∧ (op' = .multiply ∨ op' = .divide) := by
  cases op <;> cases op' <;> first | exact absurd h (by decide) | simp

/-- Where an operator absorbs, neither side asks for parentheses. -/
theorem strengths_of_absorbs (h : op.absorbs op' = true) :
    op.strengths.2 = op'.strengths.1 ∧ ¬ op'.precedence < op.strengths.2 ∧
      ∀ op'' : Operator, op''.level = op.level → ¬ op''.precedence < op'.strengths.1 := by
  rcases absorbs_cases h with ⟨rfl, rfl | rfl⟩ | ⟨rfl, rfl | rfl⟩
  all_goals
    refine ⟨by decide, by decide, fun op'' hlevel => ?_⟩
    cases op'' <;> first | decide | exact absurd hlevel (by decide)

/-- Absorbing is associativity. -/
theorem bind_of_absorbs {ops : Meaning} (hops : ops.Exact) (h : op.absorbs op' = true) (x y z : ℚ) :
    (ops op' y z).bind (ops op x) = (ops op x y).bind (ops op' · z) := by
  rcases absorbs_cases h with ⟨rfl, rfl | rfl⟩ | ⟨rfl, rfl | rfl⟩
  · simp only [hops.add, Option.bind_some, add_assoc]
  · simp only [hops.add, hops.subtract, Option.bind_some, add_sub_assoc]
  · simp only [hops.multiply, Option.bind_some, mul_assoc]
  · by_cases hz : z = 0
    · simp [hops.multiply, hops.divide, hz]
    · simp only [hops.multiply, hops.divide, hz, if_false, Option.bind_some, mul_div_assoc]

/-! ### What regrouping keeps -/

/-- A graft is an operation of the same level. -/
theorem exists_graft_eq (op : Operator) (a b : Formula) :
    ∃ op' c d, graft op a b = binary op' c d ∧ op'.level = op.level := by
  cases b with
  | leaf l => exact ⟨op, a, leaf l, rfl, rfl⟩
  | binary op' b c =>
    by_cases h : op.absorbs op' = true
    · refine ⟨op', graft op a b, c, if_pos h, ?_⟩
      rcases absorbs_cases h with ⟨rfl, rfl | rfl⟩ | ⟨rfl, rfl | rfl⟩ <;> rfl
    · exact ⟨op, a, binary op' b c, if_neg h, rfl⟩

theorem wrap_of_not_lt {required strength : Precedence} (h : ¬ strength < required)
    (code : String) : wrap required strength code = code :=
  if_neg h

theorem code_graft (op : Operator) (a b : Formula) : (graft op a b).code = (binary op a b).code := by
  induction b with
  | leaf l => rfl
  | binary op' b c ih _ =>
    rw [graft]
    split
    · next h =>
      obtain ⟨hsame, hright, hleft⟩ := strengths_of_absorbs h
      obtain ⟨op'', d, e, hgraft, hlevel⟩ := exists_graft_eq op a b
      have hstrength : (graft op a b).strength = op''.precedence := by rw [hgraft, strength]
      have hbare : wrap op'.strengths.1 (graft op a b).strength (graft op a b).code =
          (binary op a b).code := by
        rw [hstrength, wrap_of_not_lt (hleft op'' hlevel), ih]
      have hrhs : wrap op.strengths.2 (binary op' b c).strength (binary op' b c).code =
          (binary op' b c).code := by
        rw [strength, wrap_of_not_lt hright]
      rw [code, hbare, code, code, hrhs, code, hsame]
      simp only [String.append_assoc]
    · rfl

theorem precedence_eq_of_level (h : op'.level = op.level) : op'.precedence = op.precedence := by
  cases op <;> cases op' <;> first | rfl | exact absurd h (by decide)

theorem strength_regroup (f : Formula) : f.regroup.strength = f.strength := by
  cases f with
  | leaf l => rfl
  | binary op a b =>
    obtain ⟨op', c, d, hgraft, hlevel⟩ := exists_graft_eq op a.regroup b.regroup
    rw [regroup, hgraft]
    exact precedence_eq_of_level hlevel

/-- Regrouping keeps the text. -/
theorem code_regroup (f : Formula) : f.regroup.code = f.code := by
  induction f with
  | leaf l => rfl
  | binary op a b iha ihb =>
    rw [regroup, code_graft, code, code, strength_regroup, strength_regroup, iha, ihb]

theorem value_graft {ops : Meaning} (hops : ops.Exact) (env : Leaf → ℚ) (op : Operator)
    (a b : Formula) : (graft op a b).value ops env = (binary op a b).value ops env := by
  induction b with
  | leaf l => rfl
  | binary op' b c ih _ =>
    rw [graft]
    split
    · next h =>
      change ((graft op a b).value ops env).bind _ = (a.value ops env).bind _
      rw [ih]
      change ((a.value ops env).bind fun x => (b.value ops env).bind (ops op x)).bind
        (fun x => (c.value ops env).bind (ops op' x)) = (a.value ops env).bind fun x =>
          ((b.value ops env).bind fun y => (c.value ops env).bind (ops op' y)).bind (ops op x)
      cases a.value ops env with
      | none => rfl
      | some x =>
        cases b.value ops env with
        | none => rfl
        | some y =>
          cases c.value ops env with
          | none => simp
          | some z => exact (bind_of_absorbs hops h x y z).symm
    · rfl

/-- Regrouping keeps the value. -/
theorem value_regroup {ops : Meaning} (hops : ops.Exact) (env : Leaf → ℚ) (f : Formula) :
    f.regroup.value ops env = f.value ops env := by
  induction f with
  | leaf l => rfl
  | binary op a b iha ihb =>
    rw [regroup, value_graft hops]
    change (a.regroup.value ops env).bind (fun x => (b.regroup.value ops env).bind (ops op x)) = _
    rw [iha, ihb]
    rfl

theorem output_eq_of_level (h : op'.level = op.level) :
    op'.output = op.output ∧ op'.check = op.check := by
  cases op <;> cases op' <;> first | exact ⟨rfl, rfl⟩ | exact absurd h (by decide)

theorem output_graft (op : Operator) (a b : Formula) : (graft op a b).output = op.output := by
  obtain ⟨op', c, d, hgraft, hlevel⟩ := exists_graft_eq op a b
  rw [hgraft]
  exact (output_eq_of_level hlevel).1

theorem output_regroup (f : Formula) : f.regroup.output = f.output := by
  cases f with
  | leaf l => rfl
  | binary op a b => exact output_graft op a.regroup b.regroup

theorem wellTyped_graft (h : (binary op a b).WellTyped) : (graft op a b).WellTyped := by
  induction b with
  | leaf l => exact h
  | binary op' b c ih _ =>
    rw [graft]
    split
    · next habsorbs =>
      obtain ⟨ha, -, hatyped, hb, hc, hbtyped, hctyped⟩ := h
      have hlevel : op'.level = op.level := by
        rcases absorbs_cases habsorbs with ⟨rfl, rfl | rfl⟩ | ⟨rfl, rfl | rfl⟩ <;> rfl
      have hcheck := (output_eq_of_level hlevel).2
      have hgraft : Capability.compatible op'.check (graft op a b).output = true := by
        rw [output_graft]
        rcases absorbs_cases habsorbs with ⟨rfl, rfl | rfl⟩ | ⟨rfl, rfl | rfl⟩ <;> rfl
      exact ⟨hgraft, hc, ih ⟨ha, hcheck ▸ hb, hatyped, hbtyped⟩, hctyped⟩
    · exact h

theorem wellTyped_regroup (h : f.WellTyped) : f.regroup.WellTyped := by
  induction f with
  | leaf l => trivial
  | binary op a b iha ihb =>
    obtain ⟨ha, hb, hatyped, hbtyped⟩ := h
    refine wellTyped_graft ⟨?_, ?_, iha hatyped, ihb hbtyped⟩
    · rwa [output_regroup]
    · rwa [output_regroup]

/-- What holds of every leaf holds of them after regrouping. -/
theorem valid_regroup (h : f.Valid) : f.regroup.Valid := by
  have hgraft {op : Operator} {a b : Formula} (ha : a.Valid) (hb : b.Valid) :
      (graft op a b).Valid := by
    induction b with
    | leaf l => exact ⟨ha, hb⟩
    | binary op' b c ih _ =>
      rw [graft]
      split
      · exact ⟨ih hb.1, hb.2⟩
      · exact ⟨ha, hb⟩
  induction f with
  | leaf l => exact h
  | binary op a b iha ihb => exact hgraft (iha h.1) (ihb h.2)

theorem keyFree_regroup (h : f.KeyFree) : f.regroup.KeyFree := by
  have hgraft {op : Operator} {a b : Formula} (ha : a.KeyFree) (hb : b.KeyFree) :
      (graft op a b).KeyFree := by
    induction b with
    | leaf l => exact ⟨ha, hb⟩
    | binary op' b c ih _ =>
      rw [graft]
      split
      · exact ⟨ih hb.1, hb.2⟩
      · exact ⟨ha, hb⟩
  induction f with
  | leaf l => exact h
  | binary op a b iha ihb => exact hgraft (iha h.1) (ihb h.2)

/-! ### Reading -/

theorem grouped_graft (ha : a.Grouped) (hb : b.Grouped) : (graft op a b).Grouped := by
  induction b with
  | leaf l => exact ⟨ha, trivial, nofun⟩
  | binary op' b c ih _ =>
    obtain ⟨hb, hc, hkeep⟩ := hb
    rw [graft]
    split
    · exact ⟨ih hb, hc, hkeep⟩
    · next habsorbs =>
      refine ⟨ha, ⟨hb, hc, hkeep⟩, fun op'' d e heq => ?_⟩
      obtain ⟨rfl, -, -⟩ := binary.inj heq
      exact Bool.eq_false_iff.2 habsorbs

theorem grouped_regroup (f : Formula) : f.regroup.Grouped := by
  induction f with
  | leaf l => trivial
  | binary op a b iha ihb => exact grouped_graft iha ihb

/-- The loosest level of an operator outside parentheses. -/
def level : Formula → Nat
  | leaf _ => 0
  | binary op .. => op.level

theorem left_of_not_lt (h : ¬ op'.precedence < op.strengths.1) : op'.level ≤ op.left := by
  cases op <;> cases op' <;> first | decide | exact absurd (by decide) h

theorem right_of_not_lt (h : ¬ op'.precedence < op.strengths.2)
    (habsorbs : op.absorbs op' = false) : op'.level ≤ op.right := by
  cases op <;> cases op' <;> first | decide | exact absurd (by decide) h | exact nomatch habsorbs

/-- An operand is read behind the parentheses that it needs. -/
theorem reads_wrap {n : Nat} {required : Precedence} (h : Reads a.level a.code.toList a)
    (hlevel : ¬ a.strength < required → a.level ≤ n) :
    Reads n (wrap required a.strength a.code).toList a := by
  rw [wrap]
  split
  · have hnil : Blanks [] := fun _ h => absurd h List.not_mem_nil
    have hparen := Reads.paren n hnil hnil h
    rw [String.toList_append, String.toList_append]
    exact hparen
  · next hstrength => exact h.mono (hlevel hstrength)

/-- The text of a grouped formula is read as the formula. -/
theorem reads_of_grouped (h : f.Grouped) (hvalid : f.Valid) : Reads f.level f.code.toList f := by
  induction f with
  | leaf l => exact .leaf 0 (.code hvalid)
  | binary op a b iha ihb =>
    obtain ⟨ha, hb, hkeep⟩ := h
    have hblank : Blanks [' '] := fun c hc => .inl (List.mem_singleton.1 hc)
    have hleft : Reads op.left (wrap op.strengths.1 a.strength a.code).toList a := by
      refine reads_wrap (iha ha hvalid.1) fun hstrength => ?_
      cases a with
      | leaf l => exact Nat.zero_le _
      | binary op' c d => exact left_of_not_lt hstrength
    have hright : Reads op.right (wrap op.strengths.2 b.strength b.code).toList b := by
      refine reads_wrap (ihb hb hvalid.2) fun hstrength => ?_
      cases b with
      | leaf l => exact Nat.zero_le _
      | binary op' c d => exact right_of_not_lt hstrength (hkeep op' c d rfl)
    have hreads := Reads.binary op (Nat.le_refl op.level) hblank hblank hleft hright
    rw [code, String.toList_append, String.toList_append, String.toList_append,
      String.toList_append]
    simp only [List.append_assoc]
    exact hreads

/-- The text of a formula is read as the regrouped formula. -/
theorem reads_regroup (hvalid : f.Valid) : Reads f.regroup.level f.code.toList f.regroup := by
  have hreads := reads_of_grouped (grouped_regroup f) (valid_regroup hvalid)
  rwa [code_regroup] at hreads

end Formula

end ScriptBlocks.Expression
