import Mathlib.Algebra.GroupWithZero.Nat
import Mathlib.Data.List.Induction
import ScriptBlocks.Expression.Operator

/-!
# The tokens of an expression

The scan for operators is an account of the tokens of a text. A string literal is one token, and so
is the first of the operators that the text goes on with; every other character is a token of its
own. An operator counts where the brackets before it are balanced and an operand has just ended.

## Main definitions

* `Expression.tokens` — the tokens of a text
* `Expression.balance` — opening brackets less closing ones
* `Expression.EndsOperand` — an operand ends with the last token that is not blank
* `Expression.counted` — the operators that count, with places measured by the widths of tokens

## Main statements

* `Expression.flatMap_spelling_tokens` — the tokens make up the text
* `Expression.mem_counted_iff` — which operators count
* `Expression.pairwise_counted` — they stand one behind the other
* `Expression.topLevelOperators_eq_counted` — the scan finds the operators that count
-/

namespace ScriptBlocks.Expression

/-! ### Tokens -/

/-- What stands in a text, as operators go. -/
inductive Token where
  /-- A string literal with its quotes; the last one may lack the closing quote. -/
  | literal (text : List Char)
  | opening (bracket : Char)
  | closing (bracket : Char)
  /-- A space or a tab. -/
  | blank (c : Char)
  | operator (op : String)
  | other (c : Char)
deriving DecidableEq

namespace Token

/-- The characters of the token. -/
def spelling : Token → List Char
  | literal text => text
  | opening c | closing c | blank c | other c => [c]
  | operator op => op.toList

def isOpening : Token → Bool
  | opening _ => true
  | _ => false

def isClosing : Token → Bool
  | closing _ => true
  | _ => false

def isBlank : Token → Bool
  | blank _ => true
  | _ => false

def isOperator : Token → Bool
  | operator _ => true
  | _ => false

end Token

/-- How many characters a literal goes on for, up to the closing quote `q` or the end of the text.
A backslash hides the next character. -/
def literalLength (q : Char) : (hidden : Bool) → List Char → Nat
  | _, [] => 0
  | true, _ :: rest => literalLength q false rest + 1
  | false, c :: rest => if c = q then 1 else literalLength q (c = '\\') rest + 1

/-- The first token of the text `c :: rest`. -/
def tokenAt (c : Char) (rest : List Char) : Token :=
  if c = '"' ∨ c = '\'' then .literal (c :: rest.take (literalLength c false rest))
  else if c = '(' ∨ c = '[' then .opening c
  else if c = ')' ∨ c = ']' then .closing c
  else if c = ' ' ∨ c = '\t' then .blank c
  else match operatorAt (c :: rest) with
    | some op => .operator op
    | none => .other c

/-- The tokens of a text. -/
def tokens : List Char → List Token
  | [] => []
  | c :: rest => tokenAt c rest :: tokens (rest.drop ((tokenAt c rest).spelling.length - 1))
termination_by s => s.length
decreasing_by
  rw [List.length_drop, List.length_cons]
  omega

variable {c : Char} {rest s : List Char} {op : String} {q : Char} {n : Nat}

theorem operatorAt_eq_some_iff : operatorAt s = some op ↔
    spelledOperators.find? (fun e => e.2.isPrefixOf s) = some (op, op.toList) := by
  have hspelled : ∀ e ∈ spelledOperators, e.2 = e.1.toList := by
    intro e he
    obtain ⟨op, -, rfl⟩ := List.mem_map.1 he
    rfl
  rw [operatorAt, Option.map_eq_some_iff]
  constructor
  · rintro ⟨⟨op, chars⟩, hfind, rfl⟩
    obtain rfl : chars = op.toList := hspelled _ (List.mem_of_find?_eq_some hfind)
    exact hfind
  · exact fun h => ⟨_, h, rfl⟩

/-- An operator stands at the start of the text, and it is not empty. -/
theorem of_operatorAt (h : operatorAt (c :: rest) = some op) :
    op ∈ operators ∧ ∃ tail, op.toList = c :: tail ∧ tail <+: rest := by
  rw [operatorAt_eq_some_iff] at h
  have hmem : op ∈ operators := by
    obtain ⟨op', hop', heq⟩ := List.mem_map.1 (List.mem_of_find?_eq_some h)
    cases heq
    exact hop'
  have hprefix : op.toList <+: c :: rest := by
    have hfound := List.find?_some h
    exact List.isPrefixOf_iff_prefix.1 hfound
  have hne : op.toList ≠ [] := by
    have hall : ∀ op ∈ operators, op.toList ≠ [] := by decide
    exact hall op hmem
  refine ⟨hmem, ?_⟩
  cases hop : op.toList with
  | nil => exact absurd hop hne
  | cons d tail =>
    rw [hop] at hprefix
    obtain ⟨rfl, htail⟩ := List.cons_prefix_cons.1 hprefix
    exact ⟨tail, rfl, htail⟩

/-- A token is the beginning of the text. -/
theorem exists_spelling_tokenAt (c : Char) (rest : List Char) :
    ∃ tail, (tokenAt c rest).spelling = c :: tail ∧ tail <+: rest := by
  unfold tokenAt
  split
  · exact ⟨_, rfl, List.take_prefix _ _⟩
  split
  · exact ⟨[], rfl, List.nil_prefix⟩
  split
  · exact ⟨[], rfl, List.nil_prefix⟩
  split
  · exact ⟨[], rfl, List.nil_prefix⟩
  split
  · next op hop => exact (of_operatorAt hop).2
  · exact ⟨[], rfl, List.nil_prefix⟩

theorem spelling_append_drop (c : Char) (rest : List Char) :
    (tokenAt c rest).spelling ++ rest.drop ((tokenAt c rest).spelling.length - 1) = c :: rest := by
  obtain ⟨tail, hspelling, htail⟩ := exists_spelling_tokenAt c rest
  rw [hspelling, List.length_cons, Nat.add_sub_cancel, List.cons_append,
    ← List.prefix_iff_eq_append.1 htail]
  simp

/-- The tokens make up the text. -/
theorem flatMap_spelling_tokens (s : List Char) : (tokens s).flatMap Token.spelling = s := by
  induction s using tokens.induct with
  | case1 => rw [tokens]; rfl
  | case2 c rest ih => rw [tokens, List.flatMap_cons, ih, spelling_append_drop]

/-! ### Operators that count -/

/-- Opening brackets less closing ones. -/
def balance (ts : List Token) : Int := ts.countP Token.isOpening - ts.countP Token.isClosing

/-- The last of the tokens that is not blank ends an operand: it is neither an opening bracket nor an
operator outside brackets, and there is one. -/
def EndsOperand (ts : List Token) : Prop :=
  ∃ before t, ts.filter (fun t => !t.isBlank) = before ++ [t] ∧ t.isOpening = false ∧
    (t.isOperator = true → balance before ≠ 0)

/-- What is known between two tokens. -/
structure Stand where
  /-- Opening brackets less closing ones. -/
  depth : Int := 0
  /-- Whether the next token starts an operand. -/
  operandNext : Bool := true

namespace Stand

/-- The operator that a token is, if it counts. -/
def counts (st : Stand) : Token → Option String
  | .operator op => if st.depth = 0 ∧ !st.operandNext then some op else none
  | _ => none

/-- What is known behind a token. -/
def next (st : Stand) : Token → Stand
  | .literal _ | .other _ => { st with operandNext := false }
  | .opening _ => { depth := st.depth + 1 }
  | .closing _ => { depth := st.depth - 1, operandNext := false }
  | .blank _ => st
  | .operator _ => if st.depth = 0 then { st with operandNext := true } else st

end Stand

/-- The operators among tokens that count, with the places where they start. -/
def counted (width : Token → Nat) : Nat → Stand → List Token → List (Nat × String)
  | _, _, [] => []
  | place, st, t :: ts =>
    ((st.counts t).map (place, ·)).toList ++ counted width (place + width t) (st.next t) ts

section balance

variable {ts : List Token} {t : Token}

theorem balance_concat (ts : List Token) (t : Token) : balance (ts ++ [t]) =
    balance ts + (if t.isOpening then 1 else 0) - if t.isClosing then 1 else 0 := by
  rw [balance, balance, List.countP_append, List.countP_append, List.countP_singleton,
    List.countP_singleton]
  push_cast
  split <;> split <;> omega

theorem depth_foldl_next (ts : List Token) : (ts.foldl Stand.next {}).depth = balance ts := by
  induction ts using List.reverseRecOn with
  | nil => rfl
  | append_singleton ts t ih =>
    rw [List.foldl_append, List.foldl_cons, List.foldl_nil, balance_concat, ← ih]
    cases t with
    | operator op =>
      rw [Stand.next]
      split <;> simp [Token.isOpening, Token.isClosing]
    | _ => simp [Stand.next, Token.isOpening, Token.isClosing]

theorem balance_filter (ts : List Token) : balance (ts.filter fun t => !t.isBlank) = balance ts := by
  induction ts using List.reverseRecOn with
  | nil => rfl
  | append_singleton ts t ih =>
    rw [List.filter_append, balance_concat]
    cases t with
    | blank c =>
      rw [List.filter_cons_of_neg (Bool.false_ne_true), List.filter_nil, List.append_nil, ih]
      simp [Token.isOpening, Token.isClosing]
    | _ => rw [List.filter_cons_of_pos rfl, List.filter_nil, balance_concat, ih]

theorem endsOperand_concat (hblank : t.isBlank = false) : EndsOperand (ts ++ [t]) ↔
    t.isOpening = false ∧ (t.isOperator = true → balance ts ≠ 0) := by
  have hfilter : (ts ++ [t]).filter (fun t => !t.isBlank) =
      ts.filter (fun t => !t.isBlank) ++ [t] := by
    rw [List.filter_append, List.filter_cons_of_pos (by rw [hblank]; rfl), List.filter_nil]
  rw [EndsOperand, hfilter]
  constructor
  · rintro ⟨before, t', heq, h⟩
    obtain ⟨rfl, hlast⟩ := List.append_inj' heq rfl
    obtain rfl := List.singleton_inj.1 hlast
    rwa [balance_filter] at h
  · intro h
    exact ⟨_, t, rfl, by rwa [balance_filter]⟩

theorem endsOperand_concat_blank (hblank : t.isBlank = true) :
    EndsOperand (ts ++ [t]) ↔ EndsOperand ts := by
  rw [EndsOperand, EndsOperand, List.filter_append, List.filter_cons_of_neg (by rw [hblank]; nofun),
    List.filter_nil, List.append_nil]

/-- Outside brackets, what the scan remembers is whether an operand has ended. Inside brackets it need
not be, as operators are passed over there. -/
theorem operandNext_foldl_next (h : balance ts = 0) :
    (ts.foldl Stand.next {}).operandNext = false ↔ EndsOperand ts := by
  induction ts using List.reverseRecOn with
  | nil =>
    refine iff_of_false nofun ?_
    rintro ⟨before, t, heq, -⟩
    exact absurd heq.symm (List.append_ne_nil_of_right_ne_nil _ (List.cons_ne_nil _ _))
  | append_singleton ts t ih =>
    have hdepth := depth_foldl_next ts
    rw [balance_concat] at h
    rw [List.foldl_append, List.foldl_cons, List.foldl_nil]
    cases t with
    | literal | other | closing =>
      rw [endsOperand_concat rfl]
      exact iff_of_true rfl ⟨rfl, nofun⟩
    | opening =>
      rw [endsOperand_concat rfl]
      exact iff_of_false nofun fun h => nomatch h.1
    | blank =>
      rw [endsOperand_concat_blank rfl]
      exact ih (by simpa [Token.isOpening, Token.isClosing] using h)
    | operator op =>
      -- the operator stands outside brackets too, so an operand follows it
      have hzero : balance ts = 0 := by simpa [Token.isOpening, Token.isClosing] using h
      rw [endsOperand_concat rfl, Stand.next, if_pos (hdepth.trans hzero)]
      exact iff_of_false nofun fun h => h.2 rfl hzero

end balance

section counted

variable {width : Token → Nat} {ts : List Token} {place p : Nat} {st : Stand}

theorem mem_counted_iff : (p, op) ∈ counted width place st ts ↔
    ∃ before after, ts = before ++ .operator op :: after ∧ p = place + (before.map width).sum ∧
      (before.foldl Stand.next st).counts (.operator op) = some op := by
  induction ts generalizing place st with
  | nil =>
    refine iff_of_false List.not_mem_nil ?_
    rintro ⟨before, after, heq, -⟩
    exact absurd heq.symm (List.append_ne_nil_of_right_ne_nil _ (List.cons_ne_nil _ _))
  | cons t ts ih =>
    rw [counted, List.mem_append, ih, Option.mem_toList, Option.map_eq_some_iff]
    constructor
    · rintro (⟨op', hcounts, heq⟩ | ⟨before, after, rfl, rfl, hcounts⟩)
      · cases heq
        obtain rfl : t = .operator op := by
          cases t with
          | operator op' =>
            rw [Stand.counts] at hcounts
            split at hcounts
            · exact congrArg Token.operator (Option.some.inj hcounts)
            · exact nomatch hcounts
          | _ => exact nomatch hcounts
        exact ⟨[], ts, rfl, rfl, hcounts⟩
      · refine ⟨t :: before, after, rfl, ?_, hcounts⟩
        rw [List.map_cons, List.sum_cons, Nat.add_assoc]
    · rintro ⟨before, after, heq, rfl, hcounts⟩
      cases before with
      | nil =>
        cases heq
        exact .inl ⟨op, hcounts, rfl⟩
      | cons t' before =>
        cases heq
        refine .inr ⟨before, after, rfl, ?_, hcounts⟩
        rw [List.map_cons, List.sum_cons, Nat.add_assoc]

theorem le_of_mem_counted {e : Nat × String} (h : e ∈ counted width place st ts) : place ≤ e.1 := by
  obtain ⟨before, after, -, hplace, -⟩ := mem_counted_iff.1 h
  omega

/-- The operators that count stand one behind the other. -/
theorem pairwise_counted (size : String → Nat) (hsize : ∀ op, size op ≤ width (.operator op)) :
    (counted width place st ts).Pairwise fun a b => a.1 + size a.2 ≤ b.1 := by
  induction ts generalizing place st with
  | nil => exact .nil
  | cons t ts ih =>
    rw [counted, List.pairwise_append]
    refine ⟨?_, ih, ?_⟩
    · cases st.counts t with
      | none => exact .nil
      | some op => exact List.pairwise_singleton _ _
    · intro a ha b hb
      obtain ⟨op, hop, rfl⟩ := Option.map_eq_some_iff.1 (Option.mem_toList.1 ha)
      have hle := le_of_mem_counted hb
      cases t with
      | operator op' =>
        rw [Stand.counts] at hop
        split at hop
        · cases hop
          exact Nat.le_trans (Nat.add_le_add_left (hsize op) place) hle
        · exact nomatch hop
      | _ => exact nomatch hop

/-- An operator counts just if the brackets before it are balanced and an operand ends there. -/
theorem mem_counted_tokens_iff : (p, op) ∈ counted width 0 {} ts ↔
    ∃ before after, ts = before ++ .operator op :: after ∧ p = (before.map width).sum ∧
      balance before = 0 ∧ EndsOperand before := by
  rw [mem_counted_iff]
  refine exists_congr fun before => exists_congr fun after => and_congr_right fun _ => ?_
  rw [Nat.zero_add]
  refine and_congr_right fun _ => ?_
  rw [Stand.counts, depth_foldl_next]
  constructor
  · intro h
    split at h
    · next hcount => exact ⟨hcount.1, (operandNext_foldl_next hcount.1).1 (by simpa using hcount.2)⟩
    · exact nomatch h
  · rintro ⟨hbalance, hends⟩
    rw [if_pos ⟨hbalance, by rw [(operandNext_foldl_next hbalance).2 hends]; rfl⟩]

end counted

/-! ### The scan -/

/-- The scan between two tokens. -/
def Stand.toScan (st : Stand) : Scan where
  depth := st.depth
  operandNext := st.operandNext

theorem scanFrom_skip {state : Scan} (hskip : state.skip ≤ s.length) (offset : Nat) :
    scanFrom offset state s =
      scanFrom (offset + state.skip) { state with skip := 0 } (s.drop state.skip) := by
  obtain ⟨quote, depth, operandNext, skip⟩ := state
  dsimp only at hskip ⊢
  induction skip generalizing offset s with
  | zero => rfl
  | succ skip ih =>
    cases s with
    | nil => exact absurd hskip (Nat.not_succ_le_zero skip)
    | cons c rest =>
      rw [List.length_cons] at hskip
      have hrest := @ih rest (offset + 1) (by omega)
      rw [Nat.add_assoc, Nat.add_comm 1] at hrest
      exact hrest

theorem literalLength_le (q : Char) (hidden : Bool) (s : List Char) :
    literalLength q hidden s ≤ s.length := by
  induction s generalizing hidden with
  | nil => exact Nat.le_refl 0
  | cons c rest ih =>
    rw [List.length_cons]
    cases hidden with
    | true => exact Nat.succ_le_succ (ih false)
    | false =>
      rw [literalLength]
      split
      · exact Nat.le_add_left 1 _
      · exact Nat.succ_le_succ (ih _)

/-- A literal is passed over. -/
theorem scanFrom_literal (hq : q ≠ '\\') (st : Stand) (hidden : Bool) (offset : Nat) :
    scanFrom offset { st.toScan with quote := some q, skip := if hidden then 1 else 0 } s =
      scanFrom (offset + literalLength q hidden s) st.toScan (s.drop (literalLength q hidden s)) := by
  induction s generalizing hidden offset with
  | nil => rfl
  | cons c rest ih =>
    have hlength (n : Nat) : offset + (n + 1) = offset + 1 + n := by omega
    cases hidden with
    | true =>
      rw [literalLength, hlength, List.drop_succ_cons]
      exact ih false (offset + 1)
    | false =>
      rw [literalLength, scanFrom, Scan.step, if_neg (by simp)]
      by_cases hend : c = q
      · subst hend
        simp [Scan.stepQuoted, hq, Stand.toScan]
      · rw [if_neg hend, hlength (literalLength q (c = '\\') rest), List.drop_succ_cons, ← ih]
        by_cases hhide : c = '\\'
        · simp [Scan.stepQuoted, hhide]
        · simp [Scan.stepQuoted, hhide, hend]

/-- The scan of one token. -/
theorem scanFrom_token (offset : Nat) (st : Stand) (c : Char) (rest : List Char) :
    scanFrom offset st.toScan (c :: rest) =
      ((st.counts (tokenAt c rest)).map (offset, ·)).toList ++
        scanFrom (offset + (tokenAt c rest).spelling.length) (st.next (tokenAt c rest)).toScan
          (rest.drop ((tokenAt c rest).spelling.length - 1)) := by
  have hplace (n : Nat) : offset + (n + 1) = offset + 1 + n := by omega
  rw [scanFrom, Scan.step, if_neg (by simp [Stand.toScan])]
  simp only [Stand.toScan]
  rw [Scan.stepPlain]
  unfold tokenAt
  split
  · next hquote =>
    have hq : c ≠ '\\' := by rcases hquote with rfl | rfl <;> decide
    have hlength : (Token.literal (c :: rest.take (literalLength c false rest))).spelling.length =
        literalLength c false rest + 1 := by
      rw [Token.spelling, List.length_cons, List.length_take_of_le (literalLength_le ..)]
    rw [hlength, Nat.add_sub_cancel, hplace (literalLength c false rest)]
    exact scanFrom_literal hq (st.next (.literal [])) false (offset + 1)
  split
  · rfl
  split
  · rfl
  split
  · rfl
  cases hop : operatorAt (c :: rest) with
  | none => rfl
  | some op =>
    obtain ⟨-, tail, hspelled, htail⟩ := of_operatorAt hop
    have hlength : op.length = tail.length + 1 := by rw [← String.length_toList, hspelled]; rfl
    have hspelling : (Token.operator op).spelling.length = tail.length + 1 := by
      rw [Token.spelling, hspelled]
      rfl
    have hskip (d : Int) (n : Bool) : scanFrom (offset + 1)
        { depth := d, operandNext := n, skip := tail.length } rest =
        scanFrom (offset + 1 + tail.length) { depth := d, operandNext := n } (rest.drop tail.length) :=
      scanFrom_skip htail.length_le (offset + 1)
    dsimp only
    rw [hlength, hspelling, Nat.add_sub_cancel, hplace tail.length]
    simp only [Stand.counts, Stand.next]
    by_cases hdepth : st.depth = 0
    · cases hnext : st.operandNext with
      | true => simpa [hdepth] using hskip 0 true
      | false => simpa [hdepth] using hskip 0 true
    · simpa [hdepth] using hskip st.depth st.operandNext

theorem topLevelOperators_eq_counted (s : List Char) :
    topLevelOperators s = counted (fun t => t.spelling.length) 0 {} (tokens s) := by
  have hscan (offset : Nat) (st : Stand) : scanFrom offset st.toScan s =
      counted (fun t => t.spelling.length) offset st (tokens s) := by
    induction s using tokens.induct generalizing offset st with
    | case1 => rw [tokens]; rfl
    | case2 c rest ih => rw [tokens, counted, scanFrom_token, ih]
  exact hscan 0 {}

end ScriptBlocks.Expression
