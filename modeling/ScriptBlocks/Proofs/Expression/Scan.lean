import ScriptBlocks.Proofs.Expression.Formula
import ScriptBlocks.Proofs.Expression.Token
import ScriptBlocks.Proofs.Text.Class

/-!
# Texts that stand on their own in an expression

An operand is scanned without regard to what stands before and behind it: a leaf and a text in
parentheses hide what is in them, and an operator between two operands is found where it stands.
The parentheses of such a text close one another, so they can be told from parentheses that wrap the
whole of it.

## Main definitions

* `Expression.Chunk` — a text that is scanned on its own, with the operators found in it

## Main statements

* `Chunk.of_plain`, `Chunk.negative`, `Chunk.call` — leaves
* `Chunk.paren`, `Chunk.binary` — parentheses and operators
-/

namespace ScriptBlocks.Expression

variable {s t a b rest : List Char} {c : Char} {offset : Nat} {depth : Nat} {next : Bool}

/-! ### Steps of the scan -/

theorem operatorAt_of_isPlain (hc : Text.isPlain c = true) (rest : List Char) :
    operatorAt (c :: rest) = none := by
  obtain ⟨hc, -⟩ := Text.isPlain_iff.1 hc
  simp only [Text.delimiters, List.mem_cons, List.not_mem_nil, or_false, not_or] at hc
  simp [operatorAt, spelledOperators, operators, hc, eq_comm (b := c)]

theorem scan_plain_cons (hc : Text.isPlain c = true) :
    scanFrom offset { depth := depth, operandNext := next } (c :: rest) =
      scanFrom (offset + 1) { depth := depth, operandNext := false } rest := by
  have hoperator := operatorAt_of_isPlain hc rest
  obtain ⟨hc, -⟩ := Text.isPlain_iff.1 hc
  simp only [Text.delimiters, List.mem_cons, List.not_mem_nil, or_false, not_or] at hc
  simp [scanFrom, Scan.step, Scan.stepPlain, hc, hoperator, Scan.inOperand]

theorem scan_blank_cons (hc : c = ' ' ∨ c = '\t') :
    scanFrom offset { depth := depth, operandNext := next } (c :: rest) =
      scanFrom (offset + 1) { depth := depth, operandNext := next } rest := by
  rcases hc with rfl | rfl <;> simp [scanFrom, Scan.step, Scan.stepPlain]

theorem scan_open :
    scanFrom offset { depth := depth, operandNext := next } ('(' :: rest) =
      scanFrom (offset + 1) { depth := (depth + 1 : Nat) } rest := by
  simp [scanFrom, Scan.step, Scan.stepPlain]

theorem scan_close :
    scanFrom offset { depth := (depth + 1 : Nat), operandNext := next } (')' :: rest) =
      scanFrom (offset + 1) { depth := depth, operandNext := false } rest := by
  simp [scanFrom, Scan.step, Scan.stepPlain, Scan.inOperand]

/-! ### Runs of the scan -/

theorem scan_plain (hs : ∀ c ∈ s, Text.isPlain c = true) (hne : s ≠ []) (offset depth : Nat)
    (next : Bool) (rest : List Char) :
    scanFrom offset { depth := depth, operandNext := next } (s ++ rest) =
      scanFrom (offset + s.length) { depth := depth, operandNext := false } rest := by
  induction s generalizing offset next with
  | nil => exact absurd rfl hne
  | cons c s ih =>
    obtain ⟨hc, hs⟩ := List.forall_mem_cons.1 hs
    rw [List.cons_append, scan_plain_cons hc, List.length_cons, Nat.add_comm s.length,
      ← Nat.add_assoc]
    cases s with
    | nil => rfl
    | cons d s => exact ih hs (List.cons_ne_nil d s) _ _

/-- White space that may stand between the parts of an expression. -/
def Blanks (a : List Char) : Prop := ∀ c ∈ a, c = ' ' ∨ c = '\t'

theorem Blanks.isWhite (ha : Blanks a) : ∀ c ∈ a, Text.isWhite c = true := by
  intro c hc
  rcases ha c hc with rfl | rfl <;> decide

theorem scan_blanks (ha : Blanks a) (offset depth : Nat) (next : Bool) (rest : List Char) :
    scanFrom offset { depth := depth, operandNext := next } (a ++ rest) =
      scanFrom (offset + a.length) { depth := depth, operandNext := next } rest := by
  induction a generalizing offset with
  | nil => rfl
  | cons c a ih =>
    obtain ⟨hc, ha⟩ := List.forall_mem_cons.1 ha
    rw [List.cons_append, scan_blank_cons hc, ih ha, List.length_cons, Nat.add_comm a.length,
      Nat.add_assoc]

/-- Operands and blanks between brackets. -/
theorem scan_inside (hs : ∀ c ∈ s, Text.isPlain c = true ∨ c = ' ') (offset depth : Nat)
    (next : Bool) (rest : List Char) :
    ∃ next', scanFrom offset { depth := depth, operandNext := next } (s ++ rest) =
      scanFrom (offset + s.length) { depth := depth, operandNext := next' } rest := by
  induction s generalizing offset next with
  | nil => exact ⟨next, rfl⟩
  | cons c s ih =>
    obtain ⟨hc, hs'⟩ := List.forall_mem_cons.1 hs
    rw [List.cons_append, List.length_cons, Nat.add_comm s.length, ← Nat.add_assoc]
    rcases hc with hc | rfl
    · rw [scan_plain_cons hc]
      exact ih hs' _ _
    · rw [scan_blank_cons (.inl rfl)]
      exact ih hs' _ _

/-! ### Operators -/

theorem scan_skip {state : Scan} (h : state.skip = s.length) :
    scanFrom offset state (s ++ rest) =
      scanFrom (offset + s.length) { state with skip := 0 } rest := by
  have hskip : state.skip ≤ (s ++ rest).length := by
    rw [h, List.length_append]
    exact Nat.le_add_right _ _
  rw [scanFrom_skip hskip, h, List.drop_left]

/-- The longest operator is found where the text behind it does not make it longer. -/
theorem operatorAt_symbol (op : Operator) (hrest : ∀ c, rest.head? = some c → c ≠ '*' ∧ c ≠ '=') :
    operatorAt (op.symbol.toList ++ rest) = some op.symbol := by
  have hstar : ¬ ['*'] <+: rest := by
    rintro ⟨t, rfl⟩
    exact (hrest '*' rfl).1 rfl
  have hequal : ¬ ['='] <+: rest := by
    rintro ⟨t, rfl⟩
    exact (hrest '=' rfl).2 rfl
  cases op <;> simp [Operator.symbol, operatorAt, spelledOperators, operators, hstar, hequal]

theorem exists_toList_symbol (op : Operator) :
    ∃ c cs, op.symbol.toList = c :: cs ∧
      c ∉ ['"', '\'', '(', '[', ')', ']', ' ', '\t'] := by
  cases op <;> exact ⟨_, _, rfl, by decide⟩

theorem step_symbol {op : Operator} {cs : List Char} {state : Scan}
    (hsymbol : op.symbol.toList = c :: cs) (hc : c ∉ ['"', '\'', '(', '[', ')', ']', ' ', '\t'])
    (hrest : ∀ c, rest.head? = some c → c ≠ '*' ∧ c ≠ '=') (hskip : state.skip = 0)
    (hquote : state.quote = none) :
    state.step c (cs ++ rest) =
      if state.depth = 0 ∧ !state.operandNext then
        ({ state with skip := cs.length, operandNext := true }, some op.symbol)
      else ({ state with skip := cs.length }, none) := by
  have hoperator : operatorAt (c :: (cs ++ rest)) = some op.symbol := by
    rw [← List.cons_append, ← hsymbol]
    exact operatorAt_symbol op hrest
  have hlength : op.symbol.length - 1 = cs.length := by
    rw [← String.length_toList, hsymbol]
    rfl
  simp only [List.mem_cons, List.not_mem_nil, or_false, not_or] at hc
  obtain ⟨h1, h2, h3, h4, h5, h6, h7, h8⟩ := hc
  simp only [Scan.step, hskip, hquote, Scan.stepPlain, h1, h2, h3, h4, h5, h6, h7, h8, hoperator,
    hlength, or_self, if_false, ne_eq, not_true_eq_false]

/-- An operator behind an operand counts outside brackets. It must not run into what follows. -/
theorem scan_symbol (offset : Nat) (op : Operator)
    (hrest : ∀ c, rest.head? = some c → c ≠ '*' ∧ c ≠ '=') :
    scanFrom offset { operandNext := false } (op.symbol.toList ++ rest) =
      (offset, op.symbol) :: scanFrom (offset + op.symbol.toList.length) {} rest := by
  obtain ⟨c, cs, hsymbol, hc⟩ := exists_toList_symbol op
  rw [hsymbol, List.cons_append, scanFrom, step_symbol hsymbol hc hrest rfl rfl]
  simp only [Bool.not_false, and_self, if_true, Option.map_some, Option.toList_some,
    List.cons_append, List.nil_append]
  rw [scan_skip rfl, List.length_cons, Nat.add_comm cs.length, ← Nat.add_assoc]

/-- An operator does not count inside brackets, nor does one in front of an operand. -/
theorem scan_symbol_uncounted (offset : Nat) (op : Operator) (hcount : depth ≠ 0 ∨ next = true)
    (hrest : ∀ c, rest.head? = some c → c ≠ '*' ∧ c ≠ '=') :
    scanFrom offset { depth := depth, operandNext := next } (op.symbol.toList ++ rest) =
      scanFrom (offset + op.symbol.toList.length) { depth := depth, operandNext := next } rest := by
  obtain ⟨c, cs, hsymbol, hc⟩ := exists_toList_symbol op
  have hnot : ¬ ((depth : Int) = 0 ∧ (!next) = true) := by
    rintro ⟨hdepth, hnext⟩
    rcases hcount with h | rfl
    · omega
    · exact nomatch hnext
  rw [hsymbol, List.cons_append, scanFrom, step_symbol hsymbol hc hrest rfl rfl, if_neg hnot]
  simp only [Option.map_none, Option.toList_none, List.nil_append]
  rw [scan_skip rfl, List.length_cons, Nat.add_comm cs.length, ← Nat.add_assoc]

/-! ### Leaves -/

/-- A sign in front of an operand is passed over, and inside brackets any sign is. -/
theorem scan_negative (hs : ∀ c ∈ s, Text.isPlain c = true) (hne : s ≠ [])
    (hcount : depth ≠ 0 ∨ next = true) (offset : Nat) (rest : List Char) :
    scanFrom offset { depth := depth, operandNext := next } ('-' :: s ++ rest) =
      scanFrom (offset + ('-' :: s).length) { depth := depth, operandNext := false } rest := by
  have hhead : ∀ c, (s ++ rest).head? = some c → c ≠ '*' ∧ c ≠ '=' := by
    intro c h
    rw [List.head?_append_of_ne_nil s hne] at h
    obtain ⟨hc, -⟩ := Text.isPlain_iff.1 (hs c (List.mem_of_mem_head? h))
    refine ⟨?_, ?_⟩ <;> rintro rfl <;> exact hc (by decide)
  have hsign := scan_symbol_uncounted offset .subtract hcount hhead
  have hplain := scan_plain hs hne (offset + 1) depth next rest
  rw [List.length_cons, Nat.add_comm s.length, ← Nat.add_assoc]
  exact hsign.trans hplain

theorem scan_call (hs : ∀ c ∈ s, Text.isPlain c = true) (hne : s ≠ [])
    (ht : ∀ c ∈ t, Text.isPlain c = true ∨ c = ' ') (offset depth : Nat) (next : Bool)
    (rest : List Char) :
    scanFrom offset { depth := depth, operandNext := next } (s ++ ('(' :: (t ++ [')'])) ++ rest) =
      scanFrom (offset + (s ++ ('(' :: (t ++ [')']))).length)
        { depth := depth, operandNext := false } rest := by
  have hlength : offset + (s ++ ('(' :: (t ++ [')']))).length =
      offset + s.length + 1 + t.length + 1 := by
    simp only [List.length_append, List.length_cons, List.length_nil]
    omega
  obtain ⟨next', hinside⟩ := scan_inside ht (offset + s.length + 1) (depth + 1) true (')' :: rest)
  rw [hlength, List.append_assoc, scan_plain hs hne, List.cons_append, List.append_assoc]
  exact scan_open.trans (hinside.trans scan_close)

/-! ### Parentheses -/

theorem closes_cons_of_ne (h : c ≠ '(') (h' : c ≠ ')') (depth : Nat) (rest : List Char) :
    closes depth (c :: rest) = closes depth rest := by
  cases depth <;> simp [closes, h']

theorem closes_skip (h : ∀ c ∈ s, c ≠ '(' ∧ c ≠ ')') (depth : Nat) (rest : List Char) :
    closes depth (s ++ rest) = closes depth rest := by
  induction s with
  | nil => rfl
  | cons c s ih =>
    obtain ⟨hc, hs⟩ := List.forall_mem_cons.1 h
    rw [List.cons_append, closes_cons_of_ne hc.1 hc.2, ih hs]

/-- Parentheses that need one more open before them fail where it is missing, whatever follows. -/
theorem closes_eq_false (h : closes (depth + 1) s = true) : closes depth (s ++ rest) = false := by
  induction s generalizing depth with
  | nil => exact nomatch h
  | cons c s ih =>
    rw [List.cons_append]
    by_cases hopen : c = '('
    · subst hopen
      exact ih h
    · by_cases hclose : c = ')'
      · subst hclose
        cases depth with
        | zero => rfl
        | succ depth => exact ih h
      · rw [closes_cons_of_ne hopen hclose] at h ⊢
        exact ih h

/-! ### Chunks -/

/-- Operators with their offsets, as they stand behind `n` characters. -/
def shift (n : Nat) (ops : List (Nat × String)) : List (Nat × String) :=
  ops.map fun e => (n + e.1, e.2)

/-- A text that is scanned on its own, from where an operand may start to where one has ended. `ops`
are the operators that count, by their offsets. -/
structure Chunk (s : List Char) (ops : List (Nat × String)) : Prop where
  ne_nil : s ≠ []
  trimmed : Text.Trimmed s
  /-- No operator in front runs into the text. -/
  head {c : Char} : s.head? = some c → c ≠ '*' ∧ c ≠ '='
  /-- The text is part of one line and has no string literal in it. -/
  not_mem : '\n' ∉ s ∧ '\r' ∉ s ∧ '"' ∉ s ∧ '\'' ∉ s
  scan (offset : Nat) (rest : List Char) : scanFrom offset {} (s ++ rest) =
    shift offset ops ++ scanFrom (offset + s.length) { operandNext := false } rest
  scan_inside (offset depth : Nat) (next : Bool) (rest : List Char) :
    scanFrom offset { depth := (depth + 1 : Nat), operandNext := next } (s ++ rest) =
      scanFrom (offset + s.length) { depth := (depth + 1 : Nat), operandNext := false } rest
  closes (depth : Nat) (rest : List Char) : closes depth (s ++ rest) = closes depth rest

namespace Chunk

variable {ops ops' : List (Nat × String)}

theorem topLevelOperators_eq (h : Chunk s ops) : topLevelOperators s = ops := by
  have hscan := h.scan 0 []
  rw [List.append_nil] at hscan
  rw [topLevelOperators, hscan, shift]
  simp [scanFrom]

theorem of_plain (hs : ∀ c ∈ s, Text.isPlain c = true) (hne : s ≠ []) : Chunk s [] where
  ne_nil := hne
  trimmed := Text.trimmed_of_isPlain hs
  head {c} h := by
    obtain ⟨hc, -⟩ := Text.isPlain_iff.1 (hs c (List.mem_of_mem_head? h))
    refine ⟨?_, ?_⟩ <;> rintro rfl <;> exact hc (by decide)
  not_mem := by
    refine ⟨?_, ?_, ?_, ?_⟩ <;> intro hmem <;> exact absurd (hs _ hmem) (by decide)
  scan offset rest := scan_plain hs hne offset 0 true rest
  scan_inside offset depth := scan_plain hs hne offset (depth + 1)
  closes depth rest := closes_skip (fun c hc => by
    obtain ⟨hc, -⟩ := Text.isPlain_iff.1 (hs c hc)
    refine ⟨?_, ?_⟩ <;> rintro rfl <;> exact hc (by decide)) depth rest

/-- A plain text with a minus sign. -/
theorem negative (hs : ∀ c ∈ s, Text.isPlain c = true) (hne : s ≠ []) : Chunk ('-' :: s) [] where
  ne_nil := List.cons_ne_nil _ _
  trimmed := {
    head := by
      rintro c ⟨⟩
      decide
    last := by
      intro c h
      rw [List.getLast?_cons_of_ne_nil hne] at h
      exact (Text.trimmed_of_isPlain hs).last h }
  head := by
    rintro c ⟨⟩
    decide
  not_mem := by
    refine ⟨?_, ?_, ?_, ?_⟩ <;> intro hmem <;>
      exact absurd (hs _ ((List.mem_cons.1 hmem).resolve_left (by decide))) (by decide)
  scan := scan_negative hs hne (.inr rfl)
  scan_inside offset depth next := scan_negative hs hne (.inl (Nat.succ_ne_zero depth)) offset
  closes depth rest := by
    rw [List.cons_append, closes_cons_of_ne (by decide) (by decide)]
    exact (of_plain hs hne).closes depth rest

/-- A call: a plain text with arguments in parentheses. -/
theorem call (hs : ∀ c ∈ s, Text.isPlain c = true) (hne : s ≠ [])
    (ht : ∀ c ∈ t, Text.isPlain c = true ∨ c = ' ') : Chunk (s ++ ('(' :: (t ++ [')']))) [] where
  ne_nil := List.append_ne_nil_of_left_ne_nil hne _
  trimmed := {
    head := by
      intro c h
      rw [List.head?_append_of_ne_nil s hne] at h
      exact (Text.trimmed_of_isPlain hs).head h
    last := by
      intro c h
      rw [← List.cons_append, ← List.append_assoc, List.getLast?_concat] at h
      obtain rfl := Option.some.inj h
      decide }
  head {c} h := by
    rw [List.head?_append_of_ne_nil s hne] at h
    exact (of_plain hs hne).head h
  not_mem := by
    have hmem {c : Char} (h : c ∈ s ++ ('(' :: (t ++ [')']))) :
        Text.isPlain c = true ∨ c ∈ ['(', ')', ' '] := by
      simp only [List.mem_append, List.mem_cons, List.not_mem_nil, or_false] at h ⊢
      rcases h with h | rfl | h | rfl
      · exact .inl (hs c h)
      · exact .inr (.inl rfl)
      · exact (ht c h).imp_right fun h => .inr (.inr h)
      · exact .inr (.inr (.inl rfl))
    refine ⟨?_, ?_, ?_, ?_⟩ <;> intro h <;> rcases hmem h with h | h <;> revert h <;> decide
  scan offset := scan_call hs hne ht offset 0 true
  scan_inside offset depth := scan_call hs hne ht offset (depth + 1)
  closes depth rest := by
    have hinside : ∀ c ∈ t, c ≠ '(' ∧ c ≠ ')' := by
      intro c hc
      rcases ht c hc with h | rfl
      · obtain ⟨hc, -⟩ := Text.isPlain_iff.1 h
        refine ⟨?_, ?_⟩ <;> rintro rfl <;> exact hc (by decide)
      · decide
    rw [List.append_assoc, (of_plain hs hne).closes, List.cons_append, List.append_assoc,
      Expression.closes, closes_skip hinside]
    rfl

/-- What is true of a blank is true of white space around a chunk. -/
theorem not_mem_blanks (ha : Blanks a) : '\n' ∉ a ∧ '\r' ∉ a ∧ '"' ∉ a ∧ '\'' ∉ a := by
  refine ⟨?_, ?_, ?_, ?_⟩ <;> intro hmem <;> exact absurd (ha _ hmem) (by decide)

theorem closes_blanks (ha : Blanks a) (depth : Nat) (rest : List Char) :
    Expression.closes depth (a ++ rest) = Expression.closes depth rest := by
  refine closes_skip (fun c hc => ?_) depth rest
  rcases ha c hc with rfl | rfl <;> decide

theorem paren (h : Chunk s ops) (ha : Blanks a) (hb : Blanks b) :
    Chunk ('(' :: (a ++ (s ++ (b ++ [')'])))) [] := by
  have hscan (offset depth : Nat) (next : Bool) (rest : List Char) :
      scanFrom offset { depth := depth, operandNext := next }
          ('(' :: (a ++ (s ++ (b ++ [')']))) ++ rest) =
        scanFrom (offset + ('(' :: (a ++ (s ++ (b ++ [')'])))).length)
          { depth := depth, operandNext := false } rest := by
    have hlength : offset + ('(' :: (a ++ (s ++ (b ++ [')'])))).length =
        offset + 1 + a.length + s.length + b.length + 1 := by
      simp only [List.length_append, List.length_cons, List.length_nil]
      omega
    rw [hlength, List.cons_append, List.append_assoc, List.append_assoc, List.append_assoc]
    have hfront := scan_blanks ha (offset + 1) (depth + 1) true (s ++ (b ++ ([')'] ++ rest)))
    have hinside := h.scan_inside (offset + 1 + a.length) depth true (b ++ ([')'] ++ rest))
    have hback := scan_blanks hb (offset + 1 + a.length + s.length) (depth + 1) false ([')'] ++ rest)
    exact scan_open.trans (hfront.trans (hinside.trans (hback.trans scan_close)))
  refine ⟨List.cons_ne_nil _ _, ⟨?_, ?_⟩, ?_, ?_, ?_, fun offset depth next rest => ?_, ?_⟩
  · rintro c ⟨⟩
    decide
  · intro c hc
    rw [← List.append_assoc s, ← List.append_assoc a, ← List.cons_append,
      List.getLast?_concat] at hc
    obtain rfl := Option.some.inj hc
    decide
  · rintro c ⟨⟩
    decide
  · obtain ⟨hs₁, hs₂, hs₃, hs₄⟩ := h.not_mem
    obtain ⟨ha₁, ha₂, ha₃, ha₄⟩ := not_mem_blanks ha
    obtain ⟨hb₁, hb₂, hb₃, hb₄⟩ := not_mem_blanks hb
    simp [hs₁, hs₂, hs₃, hs₄, ha₁, ha₂, ha₃, ha₄, hb₁, hb₂, hb₃, hb₄]
  · exact fun offset rest => hscan offset 0 true rest
  · exact hscan offset (depth + 1) next rest
  · intro depth rest
    rw [List.cons_append, List.append_assoc, List.append_assoc, List.append_assoc,
      Expression.closes, closes_blanks ha, h.closes, closes_blanks hb]
    rfl

theorem binary (h : Chunk s ops) (h' : Chunk t ops') (op : Operator) (ha : Blanks a)
    (hb : Blanks b) : Chunk (s ++ (a ++ (op.symbol.toList ++ (b ++ t))))
      (ops ++ (s.length + a.length, op.symbol) ::
        shift (s.length + a.length + op.symbol.toList.length + b.length) ops') := by
  have hhead (rest : List Char) : ∀ c, (b ++ (t ++ rest)).head? = some c → c ≠ '*' ∧ c ≠ '=' := by
    intro c hc
    cases b with
    | nil =>
      rw [List.nil_append, List.head?_append_of_ne_nil t h'.ne_nil] at hc
      exact h'.head hc
    | cons d b =>
      obtain rfl : d = c := Option.some.inj hc
      rcases hb d List.mem_cons_self with rfl | rfl <;> decide
  have hlength : (s ++ (a ++ (op.symbol.toList ++ (b ++ t)))).length =
      s.length + a.length + op.symbol.toList.length + b.length + t.length := by
    simp only [List.length_append]
    omega
  have hassoc (rest : List Char) : s ++ (a ++ (op.symbol.toList ++ (b ++ t))) ++ rest =
      s ++ (a ++ (op.symbol.toList ++ (b ++ (t ++ rest)))) := by
    simp only [List.append_assoc]
  refine ⟨List.append_ne_nil_of_left_ne_nil h.ne_nil _, ?_, ?_, ?_, fun offset rest => ?_,
    fun offset depth next rest => ?_, fun depth rest => ?_⟩
  · have htrimmed := h.trimmed.append h'.trimmed h.ne_nil h'.ne_nil
      (a ++ (op.symbol.toList ++ b))
    simpa only [List.append_assoc] using htrimmed
  · intro c hc
    rw [List.head?_append_of_ne_nil s h.ne_nil] at hc
    exact h.head hc
  · have hsymbol : '\n' ∉ op.symbol.toList ∧ '\r' ∉ op.symbol.toList ∧ '"' ∉ op.symbol.toList ∧
        '\'' ∉ op.symbol.toList := by
      cases op <;> decide
    obtain ⟨hs₁, hs₂, hs₃, hs₄⟩ := h.not_mem
    obtain ⟨ht₁, ht₂, ht₃, ht₄⟩ := h'.not_mem
    obtain ⟨ha₁, ha₂, ha₃, ha₄⟩ := not_mem_blanks ha
    obtain ⟨hb₁, hb₂, hb₃, hb₄⟩ := not_mem_blanks hb
    obtain ⟨ho₁, ho₂, ho₃, ho₄⟩ := hsymbol
    simp only [List.mem_append, not_or]
    exact ⟨⟨hs₁, ha₁, ho₁, hb₁, ht₁⟩, ⟨hs₂, ha₂, ho₂, hb₂, ht₂⟩, ⟨hs₃, ha₃, ho₃, hb₃, ht₃⟩,
      hs₄, ha₄, ho₄, hb₄, ht₄⟩
  · have hleft := h.scan offset (a ++ (op.symbol.toList ++ (b ++ (t ++ rest))))
    have hfront := scan_blanks ha (offset + s.length) 0 false
      (op.symbol.toList ++ (b ++ (t ++ rest)))
    have hoperator := scan_symbol (offset + s.length + a.length) op (hhead rest)
    have hback := scan_blanks hb (offset + s.length + a.length + op.symbol.toList.length) 0 true
      (t ++ rest)
    have hlast := h'.scan
      (offset + s.length + a.length + op.symbol.toList.length + b.length) rest
    have hshift : shift (offset + s.length + a.length + op.symbol.toList.length + b.length) ops' =
        shift offset (shift (s.length + a.length + op.symbol.toList.length + b.length) ops') := by
      simp only [shift, List.map_map, Function.comp_def, Nat.add_assoc]
    have hrest : scanFrom (offset + s.length) { operandNext := false }
        (a ++ (op.symbol.toList ++ (b ++ (t ++ rest)))) = _ :=
      hfront.trans (hoperator.trans (congrArg _ (hback.trans hlast)))
    rw [hassoc, hleft, hrest, hlength, hshift]
    simp only [shift, List.map_append, List.map_cons, List.append_assoc, List.cons_append,
      Nat.add_assoc]
  · have hleft := h.scan_inside offset depth next (a ++ (op.symbol.toList ++ (b ++ (t ++ rest))))
    have hcount : depth + 1 ≠ 0 ∨ false = true := .inl (Nat.succ_ne_zero depth)
    have hfront := scan_blanks ha (offset + s.length) (depth + 1) false
      (op.symbol.toList ++ (b ++ (t ++ rest)))
    have hoperator := scan_symbol_uncounted (offset + s.length + a.length) op hcount (hhead rest)
    have hback := scan_blanks hb (offset + s.length + a.length + op.symbol.toList.length)
      (depth + 1) false (t ++ rest)
    have hlast := h'.scan_inside
      (offset + s.length + a.length + op.symbol.toList.length + b.length) depth false rest
    rw [hassoc, hlength, hleft, hfront, hoperator, hback, hlast]
    simp only [Nat.add_assoc]
  · have hsymbol : ∀ c ∈ op.symbol.toList, c ≠ '(' ∧ c ≠ ')' := by
      cases op <;> decide
    rw [hassoc, h.closes, closes_blanks ha, closes_skip hsymbol, closes_blanks hb, h'.closes]

end Chunk

end ScriptBlocks.Expression
