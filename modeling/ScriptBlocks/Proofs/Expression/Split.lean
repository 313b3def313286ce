import ScriptBlocks.Proofs.Expression.Octet
import ScriptBlocks.Proofs.Text.Class

/-!
# Where an expression is split

The operators that count are told by the tokens of the text. They stand one behind the other and
between characters, also when places are counted in octets, so a text can be cut there. A split takes
the first or the last of those it is asked for, and loses nothing but white space.

## Main definitions

* `Expression.topLevelOctets` — the operators that count, with their places in octets
* `Expression.SplitsAt` — the operands and operator of a text that is split

## Main statements

* `Expression.mem_topLevelOctets_iff` — the operators that count, told by tokens
* `Expression.splitsAt_of_splitChars` — what is split is split at an operator that counts
* `Expression.topLevelOperators_spec` — all that is said of the scan
-/

namespace ScriptBlocks.Expression

variable {s lhs rhs : List Char} {ops : List String} {op : String} {rightmost : Bool} {n i : Nat}

/-! ### Places -/

/-- The operators that count, with the places in octets where they start. -/
def topLevelOctets (s : List Char) : List (Nat × String) :=
  (topLevelOperators s).map fun e => ((octets (s.take e.1)).length, e.2)

theorem topLevelOctets_eq_counted (s : List Char) :
    topLevelOctets s = counted Token.octetLength 0 {} (tokens s) := by
  have hplaces (a : List Char) (ts : List Token) (st : Stand) :
      (counted (fun t => t.spelling.length) a.length st ts).map
        (fun e => ((octets ((a ++ ts.flatMap Token.spelling).take e.1)).length, e.2)) =
      counted Token.octetLength (octets a).length st ts := by
    induction ts generalizing a st with
    | nil => rfl
    | cons t ts ih =>
      have hrest := ih (a ++ t.spelling) (st.next t)
      rw [List.length_append, octets_append, List.length_append, List.append_assoc] at hrest
      rw [counted, counted, List.map_append, List.flatMap_cons, hrest]
      refine congrArg (· ++ _) ?_
      cases st.counts t with
      | none => rfl
      | some op => simp
  have hall := hplaces [] (tokens s) {}
  rw [List.nil_append, flatMap_spelling_tokens] at hall
  rw [topLevelOctets, topLevelOperators_eq_counted]
  exact hall

/-- The operators that count, told by the tokens before them. -/
theorem mem_topLevelOperators_iff : (n, op) ∈ topLevelOperators s ↔
    ∃ before after, tokens s = before ++ .operator op :: after ∧
      n = (before.flatMap Token.spelling).length ∧ balance before = 0 ∧ EndsOperand before := by
  rw [topLevelOperators_eq_counted, mem_counted_tokens_iff]
  simp only [List.length_flatMap]

theorem mem_topLevelOctets_iff : (i, op) ∈ topLevelOctets s ↔
    ∃ before after, tokens s = before ++ .operator op :: after ∧
      i = (octets (before.flatMap Token.spelling)).length ∧ balance before = 0 ∧
        EndsOperand before := by
  have hlength (ts : List Token) :
      (octets (ts.flatMap Token.spelling)).length = (ts.map Token.octetLength).sum := by
    rw [octets, List.flatMap_assoc, List.length_flatMap]
    rfl
  rw [topLevelOctets_eq_counted, mem_counted_tokens_iff]
  simp only [hlength]

theorem mem_operators_of_mem_tokens (h : .operator op ∈ tokens s) : op ∈ operators := by
  induction s using tokens.induct with
  | case1 =>
    rw [tokens] at h
    cases h
  | case2 c rest ih =>
    rw [tokens] at h
    rcases List.mem_cons.1 h with h | h
    · unfold tokenAt at h
      split at h
      · cases h
      split at h
      · cases h
      split at h
      · cases h
      split at h
      · cases h
      split at h
      · next op' hop =>
        cases h
        exact (of_operatorAt hop).1
      · cases h
    · exact ih h

/-- An operator that counts is where it is said to be. -/
theorem exists_of_mem_topLevelOperators (h : (n, op) ∈ topLevelOperators s) :
    op ∈ operators ∧ ∃ a b, s = a ++ (op.toList ++ b) ∧ a.length = n := by
  obtain ⟨before, after, htokens, rfl, -⟩ := mem_topLevelOperators_iff.1 h
  refine ⟨mem_operators_of_mem_tokens (s := s) (htokens ▸ List.mem_append_right _ List.mem_cons_self),
    _, after.flatMap Token.spelling, ?_, rfl⟩
  rw [← flatMap_spelling_tokens s, htokens, List.flatMap_append, List.flatMap_cons]
  rfl

theorem pairwise_topLevelOperators (s : List Char) :
    (topLevelOperators s).Pairwise fun a b => a.1 + a.2.length ≤ b.1 := by
  rw [topLevelOperators_eq_counted]
  exact pairwise_counted String.length fun op => (String.length_toList).ge

theorem pos_of_mem_operators (h : op ∈ operators) : 0 < op.length ∧ 0 < op.utf8ByteSize := by
  have hall : ∀ op ∈ operators, 0 < op.length ∧ 0 < op.utf8ByteSize := by decide
  exact hall op h

/-! ### Splitting -/

/-- The text is split at the place `n`: there stands the last or the first of the operators `ops` that
count, and around it the operands, without the white space around them. -/
structure SplitsAt (s : List Char) (ops : List String) (rightmost : Bool) (n : Nat)
    (lhs : List Char) (op : String) (rhs : List Char) : Prop where
  counts : (n, op) ∈ topLevelOperators s
  mem : op ∈ ops
  outermost : ∀ e ∈ topLevelOperators s, e.2 ∈ ops → if rightmost then e.1 ≤ n else n ≤ e.1
  ne_nil : lhs ≠ [] ∧ rhs ≠ []
  trimmed : Text.Trimmed lhs ∧ Text.Trimmed rhs
  text : ∃ a b c d, s = a ++ (lhs ++ b) ++ (op.toList ++ (c ++ (rhs ++ d))) ∧
    (a ++ (lhs ++ b)).length = n ∧ ∀ x ∈ a ++ b ++ c ++ d, Text.isWhite x = true

/-- The operands of a text that is split are what stands on both sides of the first or the last of the
operators asked for. -/
theorem exists_of_splitChars (h : splitChars s ops rightmost = some (lhs, op, rhs)) :
    ∃ place, (if rightmost then ((topLevelOperators s).filter fun e => ops.contains e.2).getLast?
        else ((topLevelOperators s).filter fun e => ops.contains e.2).head?) = some (place, op) ∧
      lhs = Text.trim (s.take place) ∧ rhs = Text.trim (s.drop (place + op.length)) ∧
      lhs ≠ [] ∧ rhs ≠ [] := by
  have hsplit {place : Nat} {op' : String} (h : (if Text.trim (s.take place) = [] ∨
      Text.trim (s.drop (place + op'.length)) = [] then none else some (Text.trim (s.take place),
        op', Text.trim (s.drop (place + op'.length)))) = some (lhs, op, rhs)) :
      op' = op ∧ lhs = Text.trim (s.take place) ∧ rhs = Text.trim (s.drop (place + op.length)) ∧
        lhs ≠ [] ∧ rhs ≠ [] := by
    split at h
    · cases h
    · next hne =>
      cases h
      exact ⟨rfl, rfl, rfl, not_or.1 hne⟩
  rw [splitChars] at h
  cases rightmost with
  | true =>
    obtain ⟨⟨place, op'⟩, hplace, h⟩ := Option.bind_eq_some_iff.1 h
    obtain ⟨rfl, h⟩ := hsplit h
    exact ⟨place, hplace, h⟩
  | false =>
    obtain ⟨⟨place, op'⟩, hplace, h⟩ := Option.bind_eq_some_iff.1 h
    obtain ⟨rfl, h⟩ := hsplit h
    exact ⟨place, hplace, h⟩

/-- The first or the last entry that a list sorted by places has for a filter. -/
theorem outermost_of_filter {l : List (Nat × String)} (hl : l.Pairwise fun a b => a.1 ≤ b.1)
    {p : Nat × String → Bool} {x : Nat × String}
    (h : (if rightmost then (l.filter p).getLast? else (l.filter p).head?) = some x) :
    x ∈ l ∧ p x = true ∧ ∀ e ∈ l, p e = true → if rightmost then e.1 ≤ x.1 else x.1 ≤ e.1 := by
  have hfilter := hl.filter p
  have hmem {e : Nat × String} (he : e ∈ l) (hpe : p e = true) : e ∈ l.filter p :=
    List.mem_filter.2 ⟨he, hpe⟩
  cases rightmost with
  | true =>
    obtain ⟨front, hfront⟩ := List.getLast?_eq_some_iff.1 h
    have hx : x ∈ l.filter p := hfront ▸ List.mem_append_right _ List.mem_cons_self
    refine ⟨(List.mem_filter.1 hx).1, (List.mem_filter.1 hx).2, fun e he hpe => ?_⟩
    have he := hmem he hpe
    rw [hfront] at hfilter he
    rcases List.mem_append.1 he with he | he
    · exact (List.pairwise_append.1 hfilter).2.2 e he x List.mem_cons_self
    · exact (congrArg Prod.fst (List.mem_singleton.1 he)).le
  | false =>
    obtain ⟨tail, htail⟩ := List.head?_eq_some_iff.1 h
    have hx : x ∈ l.filter p := htail ▸ List.mem_cons_self
    refine ⟨(List.mem_filter.1 hx).1, (List.mem_filter.1 hx).2, fun e he hpe => ?_⟩
    have he := hmem he hpe
    rw [htail] at hfilter he
    rcases List.mem_cons.1 he with rfl | he
    · exact Nat.le_refl _
    · exact (List.pairwise_cons.1 hfilter).1 e he

theorem splitsAt_of_splitChars (h : splitChars s ops rightmost = some (lhs, op, rhs)) :
    ∃ n, SplitsAt s ops rightmost n lhs op rhs := by
  obtain ⟨n, hplace, rfl, rfl, hlhs, hrhs⟩ := exists_of_splitChars h
  have hsorted : (topLevelOperators s).Pairwise fun a b => a.1 ≤ b.1 :=
    (pairwise_topLevelOperators s).imp fun hle => (Nat.le_add_right _ _).trans hle
  obtain ⟨hmem, hop, houtermost⟩ := outermost_of_filter hsorted hplace
  obtain ⟨-, front, back, htext, hfront⟩ := exists_of_mem_topLevelOperators hmem
  have htake : s.take n = front := by rw [htext, ← hfront, List.take_left]
  have hdrop : s.drop (n + op.length) = back := by
    rw [htext, ← hfront, ← String.length_toList, ← List.length_append, ← List.append_assoc,
      List.drop_left]
  rw [htake] at hlhs ⊢
  rw [hdrop] at hrhs ⊢
  obtain ⟨htrimmed, a, b, hfrontText, ha, hb⟩ := Text.exists_trim front
  obtain ⟨htrimmed', c, d, hbackText, hc, hd⟩ := Text.exists_trim back
  refine ⟨n, hmem, by simpa using hop, fun e he hmem => houtermost e he (by simpa using hmem),
    ⟨hlhs, hrhs⟩, ⟨htrimmed, htrimmed'⟩, a, b, c, d, ?_, ?_, ?_⟩
  · rw [← hfrontText, ← hbackText]
    exact htext
  · rw [← hfrontText, hfront]
  · intro x hx
    simp only [List.mem_append] at hx
    rcases hx with ((hx | hx) | hx) | hx
    · exact ha x hx
    · exact hb x hx
    · exact hc x hx
    · exact hd x hx

/-- The scan finds the operators that the tokens of the text tell. Through the octets of the text it
finds the same ones, and never cuts a character. They stand one behind the other, between
characters, and a text that is split is split at the last or the first one that is asked for. -/
theorem topLevelOperators_spec (text : String) :
    let s := text.toList
    let found := topLevelOctets s
    (tokens s).flatMap Token.spelling = s ∧
    (∀ i op, (i, op) ∈ found ↔ ∃ before after, tokens s = before ++ .operator op :: after ∧
      i = (octets (before.flatMap Token.spelling)).length ∧ balance before = 0 ∧
        EndsOperand before) ∧
    scanOctets 0 0 {} text.toByteArray.data.toList = some found ∧
    found.Pairwise (fun a b => a.1 < b.1 ∧ a.1 + a.2.utf8ByteSize ≤ b.1) ∧
    (∀ e ∈ found, String.Pos.Raw.IsValid text ⟨e.1⟩ ∧
      String.Pos.Raw.IsValid text ⟨e.1 + e.2.utf8ByteSize⟩) ∧
    ∀ ops rightmost lhs op rhs, splitBinary text ops rightmost = some (lhs, op, rhs) →
      ∃ n, SplitsAt s ops rightmost n lhs.toList op rhs.toList := by
  intro s found
  have hfound : found = counted Token.octetLength 0 {} (tokens s) := topLevelOctets_eq_counted s
  have hoperator {e : Nat × String} (he : e ∈ found) : e.2 ∈ operators := by
    obtain ⟨⟨n, op⟩, hmem, rfl⟩ := List.mem_map.1 he
    exact (exists_of_mem_topLevelOperators hmem).1
  refine ⟨flatMap_spelling_tokens s, fun i op => mem_topLevelOctets_iff, ?_, ?_, ?_, ?_⟩
  · rw [octets_toList, scanOctets_eq, hfound]
  · have hsorted : found.Pairwise fun a b => a.1 + a.2.utf8ByteSize ≤ b.1 := by
      rw [hfound]
      exact pairwise_counted String.utf8ByteSize fun op => (length_octets_toList op).ge
    refine hsorted.imp_of_mem fun ha _ hle => ⟨?_, hle⟩
    have hpos := (pos_of_mem_operators (hoperator ha)).2
    omega
  · intro e he
    obtain ⟨⟨n, op⟩, hmem, rfl⟩ := List.mem_map.1 he
    obtain ⟨-, a, b, htext, rfl⟩ := exists_of_mem_topLevelOperators hmem
    have hlength (s : List Char) : (octets s).length = (String.ofList s).utf8ByteSize := by
      rw [← length_octets_toList, String.toList_ofList]
    have hfront : text.toList.take a.length = a := by
      rw [show text.toList = a ++ (op.toList ++ b) from htext, List.take_left]
    have hwhole : text.toList.take (a ++ op.toList).length = a ++ op.toList := by
      rw [show text.toList = a ++ (op.toList ++ b) from htext, ← List.append_assoc, List.take_left]
    rw [String.Pos.Raw.isValid_iff_exists_take_toList, String.Pos.Raw.isValid_iff_exists_take_toList]
    refine ⟨⟨a.length, hlength _⟩, (a ++ op.toList).length, ?_⟩
    rw [hwhole, ← hlength, octets_append, List.length_append, length_octets_toList]
    exact congrArg (fun s => (octets s).length + op.utf8ByteSize) hfront
  · intro ops rightmost lhs op rhs h
    obtain ⟨⟨lhs', op', rhs'⟩, hsplit, heq⟩ := Option.map_eq_some_iff.1 h
    cases heq
    rw [String.toList_ofList, String.toList_ofList]
    exact splitsAt_of_splitChars hsplit

/-- A sign, an operator in a literal and one in brackets do not count. -/
example : topLevelOctets "-é + 'a-b' * (2 - 1)".toList = [(4, "+"), (12, "*")] := by
  decide

end ScriptBlocks.Expression
