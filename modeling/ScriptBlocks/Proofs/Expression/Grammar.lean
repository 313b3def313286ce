import ScriptBlocks.Proofs.Expression.Scan
import ScriptBlocks.Proofs.Number.Numeral

/-!
# The texts of formulas

A text is a formula by levels: at each level an operator stands between a text of its left level and
one of its right level, and a text in parentheses may stand anywhere. Whatever the blanks, such a
text is split at the operator that the formula has at its top, so the formula is what the text is
read as.

## Main definitions

* `Expression.Reads` — the texts of a formula, down to the loosest level that an operator outside
  parentheses may have

## Main statements

* `Reads.chunk` — the text stands on its own, and no operator in it is looser than the level
* `bare_binary`, `bare_paren` — which parentheses are dropped
* `splitArithmetic_binary`, `splitComparison_binary` — the text is split at the top
-/

namespace ScriptBlocks.Expression

variable {s t a b : List Char} {ops ops' : List (Nat × String)} {n : Nat} {f g : Formula}

/-! ### Leaves -/

theorem Leaf.IsName.plain {s : String} (h : IsName s) :
    (∀ c ∈ s.toList, Text.isPlain c = true) ∧ s.toList ≠ [] := by
  obtain ⟨c, cs, hs, hc, hcs⟩ := h.identifier
  have hword : Text.isWord c = true := by
    rw [Bool.or_eq_true] at hc
    rcases hc with hc | hc
    · exact Text.isWord_of_isAlpha hc
    · rw [of_decide_eq_true hc]
      decide
  rw [hs, List.forall_mem_cons]
  exact ⟨⟨Text.isPlain_of_isWord hword, fun d hd => Text.isPlain_of_isWord (hcs d hd)⟩,
    List.cons_ne_nil _ _⟩

theorem Leaf.IsNumber.numeral {value : Value} (h : IsNumber value) :
    ∃ negative whole places, Text.IsNumeral value.toText.toList negative whole places := by
  refine Value.isNumeral_toText ?_
  obtain ⟨hnumber, hfinite⟩ := h
  rw [Dialect.number] at hnumber
  split at hnumber
  · next x _ =>
    have hvalue : Value.ofNumber (powerOfTen 15) x = value := Except.ok.inj hnumber
    rw [Value.ofNumber] at hvalue
    split at hvalue
    · next i _ =>
      split at hvalue
      · exact .inl ⟨_, hvalue.symm⟩
      · exact .inr (by simpa only [← hvalue, Value.float.injEq] using hfinite x hvalue.symm)
    · exact .inr (by simpa only [← hvalue, Value.float.injEq] using hfinite x hvalue.symm)
  · cases hnumber

theorem Leaf.isNumber_ofInt {i : Int} (hi : i.natAbs < powerOfTen 15) :
    IsNumber (.int (.ofInt i)) where
  number_eq := by
    rw [Value.toText_ofInt hi]
    exact Dialect.number_toString hi
  finite := nofun

theorem Leaf.toList_code_acceleration (axis : Char) : (code (.acceleration axis)).toList =
    ("accelerometer.get_".toList ++ [axis]) ++ ('(' :: ([] ++ [')'])) := by
  change ("accelerometer.get_" ++ String.singleton axis ++ "()").toList = _
  have hcall : "()".toList = '(' :: ([] ++ [')']) := rfl
  rw [String.toList_append, String.toList_append, String.toList_singleton, hcall]

theorem Leaf.toList_code_pin (digits : String) : (code (.pin digits)).toList =
    ("pin".toList ++ (digits.toList ++ ".read_analog".toList)) ++ ('(' :: ([] ++ [')'])) := by
  change ("pin" ++ digits ++ ".read_analog()").toList = _
  have hcall : ".read_analog()".toList = ".read_analog".toList ++ ('(' :: ([] ++ [')'])) := by
    decide
  rw [String.toList_append, String.toList_append, hcall]
  simp only [List.append_assoc]

theorem Leaf.toList_code_light (x y : Nat) : (code (.light x y)).toList = "led.point".toList ++
    ('(' :: ((Nat.toDigits 10 x ++ (", ".toList ++ Nat.toDigits 10 y)) ++ [')'])) := by
  change ("led.point(" ++ toString x ++ ", " ++ toString y ++ ")").toList = _
  simp

theorem Leaf.toList_code_button (which : String) : (code (.button which)).toList =
    "input.button_is_pressed".toList ++ ('(' :: (("Button.".toList ++ which.toList) ++ [')'])) := by
  change ("input.button_is_pressed(Button." ++ which ++ ")").toList = _
  have hcall : "input.button_is_pressed(Button.".toList =
      "input.button_is_pressed".toList ++ ('(' :: "Button.".toList) := by
    decide
  rw [String.toList_append, String.toList_append, hcall]
  simp

/-- What the text of a leaf looks like. -/
inductive Outline : List Char → Prop where
  | plain {s : List Char} (hs : ∀ c ∈ s, Text.isPlain c = true) (hne : s ≠ []) : Outline s
  | negative {s : List Char} (hs : ∀ c ∈ s, Text.isPlain c = true) (hne : s ≠ []) :
    Outline ('-' :: s)
  | call {s t : List Char} (hs : ∀ c ∈ s, Text.isPlain c = true) (hne : s ≠ [])
    (ht : ∀ c ∈ t, Text.isPlain c = true ∨ c = ' ') : Outline (s ++ ('(' :: (t ++ [')'])))

namespace Outline

theorem chunk (h : Outline s) : Chunk s [] := by
  cases h with
  | plain hs hne => exact .of_plain hs hne
  | negative hs hne => exact .negative hs hne
  | call hs hne ht => exact .call hs hne ht

theorem head_cases (h : Outline s) {c : Char} (hc : s.head? = some c) :
    Text.isPlain c = true ∨ c = '-' := by
  cases h with
  | plain hs hne => exact .inl (hs c (List.mem_of_mem_head? hc))
  | negative hs hne => exact .inr (Option.some.inj hc).symm
  | call hs hne ht =>
    rw [List.head?_append_of_ne_nil _ hne] at hc
    exact .inl (hs c (List.mem_of_mem_head? hc))

theorem head?_ne (h : Outline s) : s.head? ≠ some '(' := by
  intro hhead
  exact absurd (h.head_cases hhead) (by decide)

/-- There is no operator in the text but a sign at its front. -/
theorem mem_cases (h : Outline s) {c : Char} (hc : c ∈ s.tail) :
    Text.isPlain c = true ∨ c ∈ ['(', ')', ' '] := by
  have hcall {u v : List Char} (hu : ∀ c ∈ u, Text.isPlain c = true)
      (hv : ∀ c ∈ v, Text.isPlain c = true ∨ c = ' ') (hmem : c ∈ u ++ ('(' :: (v ++ [')']))) :
      Text.isPlain c = true ∨ c ∈ ['(', ')', ' '] := by
    simp only [List.mem_append, List.mem_cons, List.not_mem_nil, or_false] at hmem ⊢
    rcases hmem with hmem | rfl | hmem | rfl
    · exact .inl (hu c hmem)
    · exact .inr (.inl rfl)
    · exact (hv c hmem).imp_right fun h => .inr (.inr h)
    · exact .inr (.inr (.inl rfl))
  cases h with
  | plain hs hne => exact .inl (hs c (List.mem_of_mem_tail hc))
  | negative hs hne => exact .inl (hs c hc)
  | call hs hne ht => exact hcall hs ht (List.mem_of_mem_tail hc)

end Outline

theorem outline_of_isNumeral {whole places : List Char} {negative : Bool}
    (h : Text.IsNumeral s negative whole places) : Outline s := by
  obtain ⟨u, rfl, hne, hu⟩ := h.plain
  cases negative with
  | false => exact .plain hu hne
  | true => exact .negative hu hne

/-- The text of a leaf is a name, a number or a call. -/
theorem Leaf.outline {l : Leaf} (hl : l.Valid) : Outline l.code.toList := by
  cases l with
  | name s =>
    obtain ⟨hplain, hne⟩ := IsName.plain hl
    exact .plain hplain hne
  | number value =>
    obtain ⟨negative, whole, places, hnumeral⟩ := IsNumber.numeral hl
    exact outline_of_isNumeral hnumeral
  | acceleration axis =>
    have hprefix : ∀ c ∈ "accelerometer.get_".toList ++ [axis], Text.isPlain c = true := by
      rcases hl with rfl | rfl | rfl <;> decide
    rw [toList_code_acceleration]
    exact .call hprefix (by simp) (by simp)
  | pin digits =>
    have hpin : ∀ c ∈ "pin".toList, Text.isPlain c = true := by decide
    have hread : ∀ c ∈ ".read_analog".toList, Text.isPlain c = true := by decide
    have hprefix : ∀ c ∈ "pin".toList ++ (digits.toList ++ ".read_analog".toList),
        Text.isPlain c = true := by
      intro c hc
      rcases List.mem_append.1 hc with hc | hc
      · exact hpin c hc
      · rcases List.mem_append.1 hc with hc | hc
        · exact Text.isPlain_of_isDigit (hl.2 c hc)
        · exact hread c hc
    rw [toList_code_pin]
    exact .call hprefix (by simp) (by simp)
  | truth b => cases b <;> exact .plain (by decide) (by decide)
  | light x y =>
    have hdigit {n : Nat} {c : Char} (hc : c ∈ Nat.toDigits 10 n) : Text.isPlain c = true :=
      Text.isPlain_of_ascii_digit (isDigit_of_mem_toDigits hc)
    have hcomma : ∀ c ∈ ", ".toList, Text.isPlain c = true ∨ c = ' ' := by decide
    have hinside : ∀ c ∈ Nat.toDigits 10 x ++ (", ".toList ++ Nat.toDigits 10 y),
        Text.isPlain c = true ∨ c = ' ' := by
      intro c hc
      rcases List.mem_append.1 hc with hc | hc
      · exact .inl (hdigit hc)
      · rcases List.mem_append.1 hc with hc | hc
        · exact hcomma c hc
        · exact .inl (hdigit hc)
    rw [toList_code_light]
    exact .call (by decide) (by decide) hinside
  | button which =>
    have hinside : ∀ c ∈ "Button.".toList ++ which.toList, Text.isPlain c = true ∨ c = ' ' := by
      rcases hl with rfl | rfl | rfl <;> decide
    rw [toList_code_button]
    exact .call (by decide) (by decide) hinside

/-! ### Texts -/

/-- The text is a spelling of the leaf: the one that is written for it or, of a number, any numeral
for it. -/
inductive Leaf.Spelled : Leaf → List Char → Prop where
  | code {l : Leaf} (hl : l.Valid) : Spelled l l.code.toList
  | numeral {s whole places : List Char} {negative : Bool} {value : Value}
    (h : Text.IsNumeral s negative whole places)
    (hread : Dialect.number (.ofList s) = .ok value) : Spelled (.number value) s

theorem Leaf.Spelled.outline {l : Leaf} (h : l.Spelled s) : Outline s := by
  cases h with
  | code hl => exact Leaf.outline hl
  | numeral h hread => exact outline_of_isNumeral h

/-- The text `s` is the formula `f`, and no operator outside its parentheses is looser than
level `n`. -/
inductive Reads : Nat → List Char → Formula → Prop where
  | leaf (n : Nat) {s : List Char} {l : Leaf} (hl : l.Spelled s) : Reads n s (.leaf l)
  | paren (n : Nat) {m : Nat} {a s b : List Char} {f : Formula} (ha : Blanks a) (hb : Blanks b)
    (h : Reads m s f) : Reads n ('(' :: (a ++ (s ++ (b ++ [')'])))) f
  | binary {n : Nat} (op : Operator) {a b s t : List Char} {f g : Formula} (hn : op.level ≤ n)
    (ha : Blanks a) (hb : Blanks b) (hf : Reads op.left s f) (hg : Reads op.right t g) :
    Reads n (s ++ (a ++ (op.symbol.toList ++ (b ++ t)))) (.binary op f g)

/-- All operators of a scan are at most as loose as level `n`. -/
def Bounded (n : Nat) (ops : List (Nat × String)) : Prop :=
  ∀ e ∈ ops, ∃ op : Operator, op.symbol = e.2 ∧ op.level ≤ n

theorem Bounded.mono {m : Nat} (h : Bounded m ops) (hmn : m ≤ n) : Bounded n ops := by
  intro e he
  obtain ⟨op, hsymbol, hlevel⟩ := h e he
  exact ⟨op, hsymbol, Nat.le_trans hlevel hmn⟩

theorem Bounded.shift (h : Bounded n ops) (k : Nat) : Bounded n (shift k ops) := by
  intro e he
  obtain ⟨e', he', rfl⟩ := List.mem_map.1 he
  exact h e' he'

theorem Operator.left_le_level (op : Operator) : op.left ≤ op.level := by
  cases op <;> decide

theorem Operator.right_le_level (op : Operator) : op.right ≤ op.level := by
  cases op <;> decide

namespace Reads

/-- A text of a formula stands on its own, and its operators outside parentheses are bounded. -/
theorem chunk (h : Reads n s f) : ∃ ops, Chunk s ops ∧ Bounded n ops := by
  induction h with
  | leaf n hl => exact ⟨[], hl.outline.chunk, fun _ he => absurd he List.not_mem_nil⟩
  | paren n ha hb h ih =>
    obtain ⟨ops, hchunk, -⟩ := ih
    exact ⟨[], hchunk.paren ha hb, fun _ he => absurd he List.not_mem_nil⟩
  | binary op hn ha hb hf hg ihf ihg =>
    obtain ⟨ops, hs, hops⟩ := ihf
    obtain ⟨ops', ht, hops'⟩ := ihg
    refine ⟨_, hs.binary ht op ha hb, fun e he => ?_⟩
    rcases List.mem_append.1 he with he | he
    · exact hops.mono (Nat.le_trans op.left_le_level hn) e he
    · rcases List.mem_cons.1 he with rfl | he
      · exact ⟨op, rfl, hn⟩
      · exact (hops'.mono (Nat.le_trans op.right_le_level hn)).shift _ e he

theorem mono {m : Nat} (h : Reads m s f) (hmn : m ≤ n) : Reads n s f := by
  cases h with
  | leaf _ hl => exact .leaf n hl
  | paren _ ha hb h => exact .paren n ha hb h
  | binary op hm ha hb hf hg => exact .binary op (Nat.le_trans hm hmn) ha hb hf hg

end Reads

/-! ### Parentheses -/

theorem bare_of_unwrap? (hs : Text.Trimmed s) (h : unwrap? s = none) :
    bare (.ofList s) = .ofList s := by
  rw [bare, String.toList_ofList, Text.trim_of_trimmed hs, stripChars]
  cases hlength : s.length with
  | zero => rfl
  | succ n => rw [stripWithin, h]

/-- A leaf has no parentheses to drop. -/
theorem bare_outline (h : Outline s) : bare (.ofList s) = .ofList s := by
  refine bare_of_unwrap? h.chunk.trimmed ?_
  rw [unwrap?]
  intro rest hcode
  exact h.head?_ne (congrArg List.head? hcode)

/-- The parentheses at the ends of two operands are no pair. -/
theorem unwrap?_append (hs : Chunk s ops) (ht : t ≠ []) : unwrap? (s ++ t) = none := by
  cases s with
  | nil => exact absurd rfl hs.ne_nil
  | cons c s =>
    by_cases hc : c = '('
    · subst hc
      have hcloses : closes 1 s = true := by
        have h := hs.closes 0 []
        rwa [List.append_nil] at h
      rw [List.cons_append, unwrap?, if_neg]
      rintro ⟨-, h⟩
      rw [List.dropLast_append_of_ne_nil ht, closes_eq_false hcloses] at h
      exact Bool.false_ne_true h
    · rw [List.cons_append, unwrap?]
      rintro rest h
      exact hc (List.cons.inj h).1

theorem length_lt_of_unwrap? {inner : List Char} (h : unwrap? s = some inner) :
    inner.length < s.length := by
  unfold unwrap? at h
  split at h
  · next rest =>
    split at h
    · rw [← Option.some.inj h, List.length_dropLast, List.length_cons]
      exact Nat.lt_succ_of_le (Nat.sub_le _ _)
    · exact nomatch h
  · exact nomatch h

/-- Fuel as long as the text is enough. -/
theorem stripWithin_eq {fuel fuel' : Nat} (h : s.length ≤ fuel) (h' : s.length ≤ fuel') :
    stripWithin fuel s = stripWithin fuel' s := by
  have hnil (k : Nat) : stripWithin k [] = [] := by cases k <;> rfl
  induction fuel generalizing s fuel' with
  | zero =>
    obtain rfl : s = [] := List.length_eq_zero_iff.1 (Nat.le_zero.1 h)
    rw [hnil, hnil]
  | succ fuel ih =>
    cases fuel' with
    | zero =>
      obtain rfl : s = [] := List.length_eq_zero_iff.1 (Nat.le_zero.1 h')
      rw [hnil, hnil]
    | succ fuel' =>
      rw [stripWithin, stripWithin]
      cases hunwrap : unwrap? s with
      | none => rfl
      | some inner =>
        have hlt := length_lt_of_unwrap? hunwrap
        have hle := Text.length_trim_le inner
        exact ih (by omega) (by omega)

theorem trimmed_parenthesized (t : List Char) : Text.Trimmed ('(' :: (t ++ [')'])) where
  head {c} h := by
    obtain rfl : '(' = c := Option.some.inj h
    decide
  last {c} h := by
    rw [← List.cons_append, List.getLast?_concat] at h
    obtain rfl : ')' = c := Option.some.inj h
    decide

/-- White space around a text is dropped with its parentheses. -/
theorem bare_trim (t : List Char) : bare (.ofList (Text.trim t)) = bare (.ofList t) := by
  rw [bare, bare, String.toList_ofList, String.toList_ofList,
    Text.trim_of_trimmed (Text.exists_trim t).1]

/-- A pair of parentheses is dropped where those within close one another. -/
theorem bare_parenthesized (h : closes 0 t = true) :
    bare (.ofList ('(' :: (t ++ [')']))) = bare (.ofList t) := by
  have hunwrap : unwrap? ('(' :: (t ++ [')'])) = some t := by
    rw [unwrap?, List.getLast?_concat, List.dropLast_concat, if_pos ⟨rfl, h⟩]
  rw [bare, bare, String.toList_ofList, String.toList_ofList,
    Text.trim_of_trimmed (trimmed_parenthesized t), stripChars, stripChars, List.length_cons,
    stripWithin, hunwrap]
  refine congrArg _ (stripWithin_eq ?_ (Nat.le_refl _))
  rw [List.length_append]
  exact (Text.length_trim_le t).trans (Nat.le_add_right _ _)

/-- Otherwise they are kept. -/
theorem bare_parenthesized_of_not_closes (h : closes 0 t = false) :
    bare (.ofList ('(' :: (t ++ [')']))) = .ofList ('(' :: (t ++ [')'])) := by
  refine bare_of_unwrap? (trimmed_parenthesized t) ?_
  rw [unwrap?, List.dropLast_concat, h, if_neg fun hand => Bool.false_ne_true hand.2]

/-- A pair of parentheses around a text is dropped. -/
theorem bare_paren (hs : Chunk s ops) (ha : Blanks a) (hb : Blanks b) :
    bare (.ofList ('(' :: (a ++ (s ++ (b ++ [')']))))) = bare (.ofList s) := by
  have hinner : a ++ (s ++ (b ++ [')'])) = a ++ (s ++ b) ++ [')'] := by
    simp only [List.append_assoc]
  have hcloses : closes 0 (a ++ (s ++ b)) = true := by
    have h := Chunk.closes_blanks hb 0 []
    rw [List.append_nil] at h
    rw [Chunk.closes_blanks ha, hs.closes, h]
    rfl
  rw [hinner, bare_parenthesized hcloses, ← bare_trim,
    Text.trim_pad hs.trimmed ha.isWhite hb.isWhite]

/-- Between two operands there is no pair of parentheses to drop. -/
theorem bare_binary (hs : Chunk s ops) (ht : Chunk t ops') (op : Operator) (ha : Blanks a)
    (hb : Blanks b) : bare (.ofList (s ++ (a ++ (op.symbol.toList ++ (b ++ t))))) =
      .ofList (s ++ (a ++ (op.symbol.toList ++ (b ++ t)))) := by
  refine bare_of_unwrap? (hs.binary ht op ha hb).trimmed (unwrap?_append hs ?_)
  simp only [ne_eq, List.append_eq_nil_iff, ht.ne_nil, and_false, not_false_eq_true]

/-! ### Splitting -/

variable {names : List String}

theorem filter_eq_nil_of_not_mem (h : ∀ e ∈ ops, e.2 ∉ names) :
    ops.filter (fun e => names.contains e.2) = [] := by
  rw [List.filter_eq_nil_iff]
  intro e he hcontains
  exact h e he (List.contains_iff_mem.1 hcontains)

theorem not_mem_shift {k : Nat} (h : ∀ e ∈ ops, e.2 ∉ names) : ∀ e ∈ shift k ops, e.2 ∉ names := by
  intro e he
  obtain ⟨e', he', rfl⟩ := List.mem_map.1 he
  exact h e' he'

/-- The operators asked for, in a text with one of them between its operands. -/
theorem filter_topLevelOperators (hs : Chunk s ops) (ht : Chunk t ops') (op : Operator)
    (ha : Blanks a) (hb : Blanks b) (hop : op.symbol ∈ names) :
    (topLevelOperators (s ++ (a ++ (op.symbol.toList ++ (b ++ t))))).filter
      (fun e => names.contains e.2) = ops.filter (fun e => names.contains e.2) ++
        (s.length + a.length, op.symbol) :: (shift (s.length + a.length +
          op.symbol.toList.length + b.length) ops').filter (fun e => names.contains e.2) := by
  have hop' : names.contains (s.length + a.length, op.symbol).2 = true :=
    List.contains_iff_mem.2 hop
  rw [(hs.binary ht op ha hb).topLevelOperators_eq, List.filter_append]
  exact congrArg _ (List.filter_cons_of_pos hop')

theorem splitBinary_eq_none (rightmost : Bool) (hs : topLevelOperators s = ops)
    (h : ∀ e ∈ ops, e.2 ∉ names) : splitBinary (.ofList s) names rightmost = none := by
  rw [splitBinary, String.toList_ofList, splitChars, hs]
  simp only [filter_eq_nil_of_not_mem h]
  cases rightmost <;> rfl

/-- A text is split at an operator if none of those asked for counts beyond it. -/
theorem splitBinary_binary (rightmost : Bool) (hs : Chunk s ops) (ht : Chunk t ops') (op : Operator) (ha : Blanks a)
    (hb : Blanks b) (hop : op.symbol ∈ names)
    (hbeyond : if rightmost then ∀ e ∈ ops', e.2 ∉ names else ∀ e ∈ ops, e.2 ∉ names) :
    splitBinary (.ofList (s ++ (a ++ (op.symbol.toList ++ (b ++ t))))) names rightmost =
      some (.ofList s, op.symbol, .ofList t) := by
  have htake : (s ++ (a ++ (op.symbol.toList ++ (b ++ t)))).take (s.length + a.length) = s ++ a := by
    rw [← List.append_assoc, ← List.length_append, List.take_left]
  have hdrop : (s ++ (a ++ (op.symbol.toList ++ (b ++ t)))).drop
      (s.length + a.length + op.symbol.length) = b ++ t := by
    rw [← String.length_toList, ← List.length_append, ← List.length_append]
    have hassoc : s ++ (a ++ (op.symbol.toList ++ (b ++ t))) =
        s ++ a ++ op.symbol.toList ++ (b ++ t) := by
      simp only [List.append_assoc]
    rw [hassoc, List.drop_left]
  have hnil : Blanks [] := fun _ h => absurd h List.not_mem_nil
  have hlhs : Text.trim (s ++ a) = s := Text.trim_pad hs.trimmed hnil.isWhite ha.isWhite
  have hrhs : Text.trim (b ++ t) = t := by
    have hpad := Text.trim_pad ht.trimmed hb.isWhite hnil.isWhite
    rwa [List.append_nil] at hpad
  rw [splitBinary, String.toList_ofList, splitChars]
  simp only [filter_topLevelOperators hs ht op ha hb hop]
  cases rightmost with
  | true =>
    rw [filter_eq_nil_of_not_mem (not_mem_shift hbeyond), List.getLast?_concat]
    simp [htake, hdrop, hlhs, hrhs, hs.ne_nil, ht.ne_nil]
  | false =>
    rw [filter_eq_nil_of_not_mem hbeyond, List.nil_append, List.head?_cons]
    simp [htake, hdrop, hlhs, hrhs, hs.ne_nil, ht.ne_nil]

theorem mem_sums {op : Operator} : op.symbol ∈ ["+", "-"] ↔ op.level = 3 := by
  cases op <;> decide

theorem mem_products {op : Operator} : op.symbol ∈ ["*", "/"] ↔ op.level = 2 := by
  cases op <;> decide

theorem mem_powers {op : Operator} : op.symbol ∈ ["**"] ↔ op.level = 1 := by
  cases op <;> decide

theorem mem_comparisonSymbols {op : Operator} :
    op.symbol ∈ Dialect.comparisonSymbols ↔ op.level = 4 := by
  cases op <;> decide

theorem Bounded.not_mem {k : Nat} (h : Bounded n ops)
    (hnames : ∀ {op : Operator}, op.symbol ∈ names ↔ op.level = k) (hk : n < k) :
    ∀ e ∈ ops, e.2 ∉ names := by
  intro e he hmem
  obtain ⟨op, hsymbol, hlevel⟩ := h e he
  rw [← hsymbol] at hmem
  have := hnames.1 hmem
  omega

/-- Arithmetic is split at its top. -/
theorem splitArithmetic_binary {op : Operator} (hop : op.isComparison = false) (ha : Blanks a)
    (hb : Blanks b) (hf : Reads op.left s f) (hg : Reads op.right t g) :
    Dialect.splitArithmetic (.ofList (s ++ (a ++ (op.symbol.toList ++ (b ++ t))))) =
      some (.ofList s, op.symbol, .ofList t) := by
  obtain ⟨ops, hs, hops⟩ := hf.chunk
  obtain ⟨ops', ht, hops'⟩ := hg.chunk
  obtain ⟨all, hall, hbound⟩ := (Reads.binary op (Nat.le_refl _) ha hb hf hg).chunk
  have hlevel : op.level ≠ 4 := by simpa [Operator.isComparison] using hop
  have hcases : op.level = 3 ∧ op.right = 2 ∨ op.level = 2 ∧ op.right = 1 ∨
      op.level = 1 ∧ op.left = 0 := by
    cases op <;> first | decide | exact absurd rfl hlevel
  rw [Dialect.splitArithmetic]
  rcases hcases with ⟨hlevel, hright⟩ | ⟨hlevel, hright⟩ | ⟨hlevel, hleft⟩
  · rw [hright] at hops'
    rw [splitBinary_binary true hs ht op ha hb (mem_sums.2 hlevel) (hops'.not_mem mem_sums (by decide))]
    rfl
  · rw [hright] at hops'
    rw [hlevel] at hbound
    rw [splitBinary_eq_none true hall.topLevelOperators_eq (hbound.not_mem mem_sums (by decide)),
      splitBinary_binary true hs ht op ha hb (mem_products.2 hlevel)
        (hops'.not_mem mem_products (by decide))]
    rfl
  · rw [hleft] at hops
    rw [hlevel] at hbound
    rw [splitBinary_eq_none true hall.topLevelOperators_eq (hbound.not_mem mem_sums (by decide)),
      splitBinary_eq_none true hall.topLevelOperators_eq (hbound.not_mem mem_products (by decide)),
      splitBinary_binary false hs ht op ha hb (mem_powers.2 hlevel)
        (hops.not_mem mem_powers (by decide))]
    rfl

/-- A comparison is split at its top, where its only comparison operator stands. -/
theorem splitComparison_binary {op : Operator} (hop : op.isComparison = true) (ha : Blanks a)
    (hb : Blanks b) (hf : Reads op.left s f) (hg : Reads op.right t g) :
    splitBinary (.ofList (s ++ (a ++ (op.symbol.toList ++ (b ++ t))))) Dialect.comparisonSymbols
        false = some (.ofList s, op.symbol, .ofList t) ∧
      ((topLevelOperators (s ++ (a ++ (op.symbol.toList ++ (b ++ t))))).filter
        fun e => Dialect.comparisonSymbols.contains e.2).length = 1 := by
  obtain ⟨ops, hs, hops⟩ := hf.chunk
  obtain ⟨ops', ht, hops'⟩ := hg.chunk
  have hlevel : op.level = 4 := of_decide_eq_true hop
  have hsides : op.left = 3 ∧ op.right = 3 := by
    cases op <;> first | decide | exact nomatch hop
  rw [hsides.1] at hops
  rw [hsides.2] at hops'
  have hnot := hops.not_mem mem_comparisonSymbols (by decide)
  have hnot' := hops'.not_mem mem_comparisonSymbols (by decide)
  have hmem := mem_comparisonSymbols.2 hlevel
  refine ⟨splitBinary_binary false hs ht op ha hb hmem hnot, ?_⟩
  rw [filter_topLevelOperators hs ht op ha hb hmem, filter_eq_nil_of_not_mem hnot,
    filter_eq_nil_of_not_mem (not_mem_shift hnot')]
  rfl

end ScriptBlocks.Expression
