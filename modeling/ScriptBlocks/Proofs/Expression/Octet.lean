import Mathlib.Data.List.Find
import ScriptBlocks.Proofs.Expression.Token

/-!
# The scan for operators, octet by octet

A text is stored in UTF-8. The scan can go through its octets without decoding them: all characters
that mean something to it are octets of their own, and no octet of another character looks like one
of them. A backslash that hides only the first octet of a character hides enough of it. So the
operators are found at the same places, measured in octets, and these lie between characters.

## Main definitions

* `Expression.octets` — a text in UTF-8
* `Expression.scanOctets` — the scan through octets

## Main statements

* `Expression.scanOctets_eq` — the scan through octets finds the operators that count
* `Expression.isValid_place` — the places between tokens lie between characters
-/

namespace ScriptBlocks.Expression

/-- The text in UTF-8. -/
def octets (s : List Char) : List UInt8 := s.flatMap String.utf8EncodeChar

/-- The octet of a character that is one octet. -/
def octet (c : Char) : UInt8 := UInt8.ofNat c.toNat

/-- The text from an octet on, if a character starts with that octet. -/
def sliceFrom? : List UInt8 → Option (List UInt8)
  | [] => some []
  | b :: rest => if 0x80 ≤ b ∧ b < 0xC0 then none else some (b :: rest)

/-- The operator that a text starts with. -/
def operatorOctetsAt (s : List UInt8) : Option String :=
  operators.find? fun op => (octets op.toList).isPrefixOf s

/-- What the scan through octets remembers. -/
structure OctetScan where
  /-- The quote that ends the literal being scanned. -/
  quote : Option UInt8 := none
  /-- Opening brackets less closing ones. -/
  depth : Int := 0
  /-- Whether the next token starts an operand. -/
  operandNext : Bool := true

namespace OctetScan

/-- One step inside a literal; gives the number of octets to be passed over. -/
def stepQuoted (s : OctetScan) (q b : UInt8) : OctetScan × Nat :=
  if b = octet '\\' then (s, 1)
  else if b = q then ({ s with quote := none }, 0)
  else (s, 0)

/-- One step outside literals, at the octets `b :: rest`; gives the number of octets to be passed over
and the operator that counts, if there is one. It fails where it would cut a character. -/
def stepPlain (s : OctetScan) (b : UInt8) (rest : List UInt8) :
    Option (OctetScan × Nat × Option String) :=
  if b = octet '"' ∨ b = octet '\'' then
    some ({ s with quote := some b, operandNext := false }, 0, none)
  else if b = octet '(' ∨ b = octet '[' then
    some ({ s with depth := s.depth + 1, operandNext := true }, 0, none)
  else if b = octet ')' ∨ b = octet ']' then
    some ({ s with depth := s.depth - 1, operandNext := false }, 0, none)
  else if b = octet ' ' ∨ b = octet '\t' then some (s, 0, none)
  else if 0x80 ≤ b then some ({ s with operandNext := false }, 0, none)
  else (sliceFrom? (b :: rest)).map fun slice =>
    match operatorOctetsAt slice with
    | none => ({ s with operandNext := false }, 0, none)
    | some op =>
      if s.depth = 0 ∧ !s.operandNext then
        ({ s with operandNext := true }, op.utf8ByteSize - 1, some op)
      else (s, op.utf8ByteSize - 1, none)

/-- One step of the scan at the octets `b :: rest`. -/
def step (s : OctetScan) (b : UInt8) (rest : List UInt8) :
    Option (OctetScan × Nat × Option String) :=
  match s.quote with
  | some q => some ((s.stepQuoted q b).1, (s.stepQuoted q b).2, none)
  | none => s.stepPlain b rest

end OctetScan

/-- The operators that count from a given state of the scan on, with their offsets. The first `skip`
octets are passed over. -/
def scanOctets : (offset skip : Nat) → OctetScan → List UInt8 → Option (List (Nat × String))
  | _, _, _, [] => some []
  | offset, skip + 1, s, _ :: rest => scanOctets (offset + 1) skip s rest
  | offset, 0, s, b :: rest =>
    (s.step b rest).bind fun (s, skip, found) =>
      (scanOctets (offset + 1) skip s rest).map ((found.map (offset, ·)).toList ++ ·)

/-! ### Characters as octets -/

section octets

variable {c d : Char} {s t : List Char}

theorem octets_append (s t : List Char) : octets (s ++ t) = octets s ++ octets t :=
  List.flatMap_append

theorem octets_cons (c : Char) (s : List Char) :
    octets (c :: s) = String.utf8EncodeChar c ++ octets s :=
  List.flatMap_cons

/-- The octets of a string are those that it is stored in. -/
theorem octets_toList (text : String) : text.toByteArray.data.toList = octets text.toList := by
  rw [← String.utf8Encode_toList, List.utf8Encode, List.data_toByteArray]
  rfl

theorem length_octets_toList (text : String) : (octets text.toList).length = text.utf8ByteSize := by
  rw [← octets_toList, Array.length_toList]
  rfl

theorem encode_of_lt (hc : c.toNat < 128) : String.utf8EncodeChar c = [octet c] := by
  rw [String.utf8EncodeChar]
  exact if_pos (Nat.le_of_lt_succ hc)

theorem octet_inj (hc : c.toNat < 128) (hd : d.toNat < 128) : octet c = octet d ↔ c = d := by
  constructor
  · intro h
    have htoNat := congrArg UInt8.toNat h
    rw [octet, octet, UInt8.toNat_ofNat', UInt8.toNat_ofNat', Nat.mod_eq_of_lt (by omega),
      Nat.mod_eq_of_lt (by omega)] at htoNat
    exact Char.toNat_inj.1 htoNat
  · rintro rfl
    rfl

theorem octet_lt (hc : c.toNat < 128) : ¬ 0x80 ≤ octet c := by
  rw [UInt8.le_iff_toNat_le, octet, UInt8.toNat_ofNat', Nat.mod_eq_of_lt (by omega)]
  exact Nat.not_le.2 hc

/-- Every octet of a character that is more than one is large. -/
theorem encode_of_le (hc : 128 ≤ c.toNat) : String.utf8EncodeChar c ≠ [] ∧
    ∀ b ∈ String.utf8EncodeChar c, 0x80 ≤ b := by
  have hsmall : ¬ c.val.toNat ≤ 127 := Nat.not_le.2 hc
  refine ⟨String.utf8EncodeChar_ne_nil, ?_⟩
  have hlarge (n : Nat) (h : 128 ≤ n % 256) : 0x80 ≤ UInt8.ofNat n := by
    rw [UInt8.le_iff_toNat_le, UInt8.toNat_ofNat']
    exact h
  intro b hb
  rw [String.utf8EncodeChar] at hb
  rw [if_neg hsmall] at hb
  split at hb
  · simp only [List.mem_cons, List.not_mem_nil, or_false] at hb
    rcases hb with rfl | rfl <;> exact hlarge _ (by omega)
  split at hb
  · simp only [List.mem_cons, List.not_mem_nil, or_false] at hb
    rcases hb with rfl | rfl | rfl <;> exact hlarge _ (by omega)
  · simp only [List.mem_cons, List.not_mem_nil, or_false] at hb
    rcases hb with rfl | rfl | rfl | rfl <;> exact hlarge _ (by omega)

/-- Whether a text of small characters stands at the start can be seen from the octets. -/
theorem octets_prefix_iff (hs : ∀ c ∈ s, c.toNat < 128) : octets s <+: octets t ↔ s <+: t := by
  induction s generalizing t with
  | nil => exact iff_of_true List.nil_prefix List.nil_prefix
  | cons c s ih =>
    obtain ⟨hc, hs⟩ := List.forall_mem_cons.1 hs
    rw [octets_cons, encode_of_lt hc, List.singleton_append]
    cases t with
    | nil => exact iff_of_false (fun h => nomatch List.prefix_nil.1 h) fun h => nomatch List.prefix_nil.1 h
    | cons d t =>
      rw [octets_cons, List.cons_prefix_cons, ← ih hs]
      by_cases hd : d.toNat < 128
      · rw [encode_of_lt hd, List.singleton_append, List.cons_prefix_cons, octet_inj hc hd]
      · obtain ⟨hne, hlarge⟩ := encode_of_le (Nat.not_lt.1 hd)
        obtain ⟨b, bs, hencode⟩ := List.exists_cons_of_ne_nil hne
        rw [hencode] at hlarge ⊢
        rw [List.cons_append, List.cons_prefix_cons]
        refine iff_of_false (fun h => ?_) fun h => hd (h.1 ▸ hc)
        exact octet_lt hc (h.1 ▸ hlarge b List.mem_cons_self)

end octets

/-! ### The scan -/

section scan

variable {c : Char} {rest s : List Char} {st : Stand} {offset : Nat}

theorem small_operators {op : String} (hop : op ∈ operators) {c : Char} (hc : c ∈ op.toList) :
    c.toNat < 128 := by
  have hall : operators.all (fun op => op.toList.all fun c => c.toNat < 128) = true := by decide
  exact of_decide_eq_true (List.all_eq_true.1 (List.all_eq_true.1 hall op hop) c hc)

/-- The operator that a text starts with can be seen from the octets. -/
theorem operatorOctetsAt_octets (s : List Char) : operatorOctetsAt (octets s) = operatorAt s := by
  have hprefix : ∀ op ∈ operators,
      (octets op.toList).isPrefixOf (octets s) = op.toList.isPrefixOf s := by
    intro op hop
    rw [Bool.eq_iff_iff, List.isPrefixOf_iff_prefix, List.isPrefixOf_iff_prefix,
      octets_prefix_iff fun _ => small_operators hop]
  rw [operatorOctetsAt, operatorAt, spelledOperators, List.find?_map, Option.map_map]
  exact (List.find?_congr hprefix).trans Option.map_id'.symm

/-- A character of several octets means nothing to the scan. -/
theorem tokenAt_of_le (hc : 128 ≤ c.toNat) (rest : List Char) : tokenAt c rest = .other c := by
  have hne (d : Char) (hd : d.toNat < 128) : c ≠ d := by
    rintro rfl
    omega
  have hnone : operatorAt (c :: rest) = none := by
    refine Option.eq_none_iff_forall_ne_some.2 fun op hop => ?_
    obtain ⟨hmem, tail, hspelled, -⟩ := of_operatorAt hop
    have hsmall := small_operators hmem (hspelled ▸ List.mem_cons_self)
    omega
  unfold tokenAt
  rw [if_neg (not_or.2 ⟨hne _ (by decide), hne _ (by decide)⟩),
    if_neg (not_or.2 ⟨hne _ (by decide), hne _ (by decide)⟩),
    if_neg (not_or.2 ⟨hne _ (by decide), hne _ (by decide)⟩),
    if_neg (not_or.2 ⟨hne _ (by decide), hne _ (by decide)⟩), hnone]

/-- The scan between two tokens. -/
def Stand.toOctetScan (st : Stand) : OctetScan where
  depth := st.depth
  operandNext := st.operandNext

theorem scanOctets_skip (state : OctetScan) (bs rest : List UInt8) (offset : Nat) :
    scanOctets offset bs.length state (bs ++ rest) =
      scanOctets (offset + bs.length) 0 state rest := by
  induction bs generalizing offset with
  | nil => rfl
  | cons b bs ih =>
    rw [List.length_cons, List.cons_append, scanOctets, ih, Nat.add_right_comm, Nat.add_assoc]

/-- A step that finds nothing. -/
theorem scanOctets_of_step {state state' : OctetScan} {b : UInt8} {rest : List UInt8} {skip : Nat}
    (h : state.step b rest = some (state', skip, none)) (offset : Nat) :
    scanOctets offset 0 state (b :: rest) = scanOctets (offset + 1) skip state' rest := by
  rw [scanOctets, h, Option.bind_some]
  exact Option.map_id'

/-- Large octets in a literal belong to it. -/
theorem scanOctets_quoted {bs : List UInt8} (hbs : ∀ b ∈ bs, 0x80 ≤ b) {state : OctetScan} {q : Char}
    (hq : q.toNat < 128) (hquote : state.quote = some (octet q)) (rest : List UInt8) (offset : Nat) :
    scanOctets offset 0 state (bs ++ rest) = scanOctets (offset + bs.length) 0 state rest := by
  induction bs generalizing offset with
  | nil => rfl
  | cons b bs ih =>
    obtain ⟨hb, hbs⟩ := List.forall_mem_cons.1 hbs
    have hne {d : Char} (hd : d.toNat < 128) : b ≠ octet d := fun h => octet_lt hd (h ▸ hb)
    have hstep : state.step b (bs ++ rest) = some (state, 0, none) := by
      rw [OctetScan.step, hquote]
      simp only [OctetScan.stepQuoted, if_neg (hne (d := '\\') (by decide)), if_neg (hne hq)]
    rw [List.cons_append, scanOctets_of_step hstep, ih hbs, List.length_cons, Nat.add_assoc,
      Nat.add_comm 1]

/-- Large octets outside literals belong to an operand. -/
theorem scanOctets_large {bs : List UInt8} (hbs : ∀ b ∈ bs, 0x80 ≤ b) (hne : bs ≠ [])
    (st : Stand) (rest : List UInt8) (offset : Nat) :
    scanOctets offset 0 st.toOctetScan (bs ++ rest) = scanOctets (offset + bs.length) 0
      { st with operandNext := false : Stand }.toOctetScan rest := by
  induction bs generalizing offset st with
  | nil => exact absurd rfl hne
  | cons b bs ih =>
    obtain ⟨hb, hbs⟩ := List.forall_mem_cons.1 hbs
    have hne {d : Char} (hd : d.toNat < 128) : b ≠ octet d := fun h => octet_lt hd (h ▸ hb)
    have hstep : st.toOctetScan.step b (bs ++ rest) =
        some ({ st with operandNext := false : Stand }.toOctetScan, 0, none) := by
      simp only [OctetScan.step, Stand.toOctetScan, OctetScan.stepPlain]
      rw [if_neg (not_or.2 ⟨hne (by decide), hne (by decide)⟩),
        if_neg (not_or.2 ⟨hne (by decide), hne (by decide)⟩),
        if_neg (not_or.2 ⟨hne (by decide), hne (by decide)⟩),
        if_neg (not_or.2 ⟨hne (by decide), hne (by decide)⟩), if_pos hb]
    rw [List.cons_append, scanOctets_of_step hstep, List.length_cons]
    cases bs with
    | nil => rfl
    | cons b' bs => rw [ih hbs (List.cons_ne_nil _ _), Nat.add_assoc, Nat.add_comm 1]

theorem exists_encode (c : Char) :
    ∃ b bs, String.utf8EncodeChar c = b :: bs ∧ ∀ x ∈ bs, 0x80 ≤ x := by
  by_cases hc : c.toNat < 128
  · exact ⟨octet c, [], encode_of_lt hc, nofun⟩
  · obtain ⟨hne, hlarge⟩ := encode_of_le (Nat.not_lt.1 hc)
    obtain ⟨b, bs, hencode⟩ := List.exists_cons_of_ne_nil hne
    rw [hencode] at hlarge
    exact ⟨b, bs, hencode, (List.forall_mem_cons.1 hlarge).2⟩

/-- A literal is passed over. -/
theorem scanOctets_literal {q : Char} (hq : q = '"' ∨ q = '\'') (st : Stand) (hidden : Bool)
    (offset : Nat) :
    scanOctets offset (if hidden then 1 else 0) { st.toOctetScan with quote := some (octet q) }
        (octets s) =
      scanOctets (offset + (octets (s.take (literalLength q hidden s))).length) 0 st.toOctetScan
        (octets (s.drop (literalLength q hidden s))) := by
  have hsmall : q.toNat < 128 := by rcases hq with rfl | rfl <;> decide
  have hslash : q ≠ '\\' := by rcases hq with rfl | rfl <;> decide
  induction s generalizing hidden offset with
  | nil => rfl
  | cons c rest ih =>
    have hplace (n : Nat) : offset + (octets ((c :: rest).take (n + 1))).length =
        offset + (String.utf8EncodeChar c).length + (octets (rest.take n)).length := by
      rw [List.take_succ_cons, octets_cons, List.length_append, Nat.add_assoc]
    cases hidden with
    | true =>
      -- the octets behind the one that is hidden mean nothing
      obtain ⟨b, bs, hencode, hbs⟩ := exists_encode c
      rw [literalLength, hplace, List.drop_succ_cons, ← ih false, octets_cons, hencode]
      rw [List.length_cons, Nat.add_comm bs.length, ← Nat.add_assoc]
      exact scanOctets_quoted hbs hsmall rfl (octets rest) (offset + 1)
    | false =>
      by_cases hc : c.toNat < 128
      · rw [literalLength, octets_cons, encode_of_lt hc, List.singleton_append]
        by_cases hend : c = q
        · subst hend
          have hstep : { st.toOctetScan with quote := some (octet c) : OctetScan }.step (octet c)
              (octets rest) = some (st.toOctetScan, 0, none) := by
            simp [OctetScan.step, OctetScan.stepQuoted, octet_inj hc, hslash, Stand.toOctetScan]
          rw [if_pos rfl, hplace, encode_of_lt hc]
          exact scanOctets_of_step hstep offset
        · rw [if_neg hend, hplace, List.drop_succ_cons, encode_of_lt hc, List.length_singleton, ← ih]
          refine scanOctets_of_step ?_ offset
          by_cases hhide : c = '\\'
          · simp [OctetScan.step, OctetScan.stepQuoted, hhide]
          · simp [OctetScan.step, OctetScan.stepQuoted, octet_inj hc, hhide, hend, hsmall]
      · obtain ⟨-, hlarge⟩ := encode_of_le (Nat.not_lt.1 hc)
        have hne {d : Char} (hd : d.toNat < 128) : c ≠ d := fun h => hc (h ▸ hd)
        rw [literalLength, if_neg (hne hsmall), decide_eq_false (hne (by decide)), hplace,
          List.drop_succ_cons, ← ih false, octets_cons]
        exact scanOctets_quoted hlarge hsmall rfl (octets rest) offset

/-- The number of octets of a token. -/
def Token.octetLength (t : Token) : Nat := (octets t.spelling).length

/-- The scan of one token. -/
theorem scanOctets_token (offset : Nat) (st : Stand) (c : Char) (rest : List Char) :
    scanOctets offset 0 st.toOctetScan (octets (c :: rest)) =
      (scanOctets (offset + (tokenAt c rest).octetLength) 0 (st.next (tokenAt c rest)).toOctetScan
        (octets (rest.drop ((tokenAt c rest).spelling.length - 1)))).map
          (((st.counts (tokenAt c rest)).map (offset, ·)).toList ++ ·) := by
  by_cases hc : c.toNat < 128
  · have hoctet (d : Char) (hd : d.toNat < 128) : octet c = octet d ↔ c = d := octet_inj hc hd
    have hlength (s : List Char) : (octets (c :: s)).length = 1 + (octets s).length := by
      rw [octets_cons, encode_of_lt hc, List.length_append, List.length_singleton]
    have hone (t : Token) (ht : t.spelling = [c]) : t.octetLength = 1 := by
      rw [Token.octetLength, ht, hlength]
      rfl
    have hcons : octets (c :: rest) = octet c :: octets rest := by
      rw [octets_cons, encode_of_lt hc, List.singleton_append]
    have hoperator := operatorOctetsAt_octets (c :: rest)
    rw [hcons] at hoperator
    rw [hcons, scanOctets]
    simp only [OctetScan.step, Stand.toOctetScan, OctetScan.stepPlain]
    simp (disch := decide) only [hoctet]
    unfold tokenAt
    split
    · next hquote =>
      have hdrop : (Token.literal (c :: rest.take (literalLength c false rest))).spelling.length - 1 =
          literalLength c false rest := by
        rw [Token.spelling, List.length_cons, List.length_take_of_le (literalLength_le ..),
          Nat.add_sub_cancel]
      have hliteral := scanOctets_literal (s := rest) hquote (st.next (.literal [])) false (offset + 1)
      rw [hdrop, Token.octetLength, Token.spelling, hlength, ← Nat.add_assoc]
      exact congrArg (Option.map ([] ++ ·)) hliteral
    split
    · rw [hone (.opening c) rfl]
      rfl
    split
    · rw [hone (.closing c) rfl]
      rfl
    split
    · rw [hone (.blank c) rfl]
      rfl
    rw [if_neg (octet_lt hc), sliceFrom?, if_neg fun h => octet_lt hc h.1, Option.map_some,
      Option.bind_some, hoperator]
    cases hop : operatorAt (c :: rest) with
    | none =>
      dsimp only
      rw [hone (.other c) rfl]
      rfl
    | some op =>
      obtain ⟨-, tail, hspelled, hprefix⟩ := of_operatorAt hop
      obtain ⟨rest', rfl⟩ := hprefix
      have hsize : op.utf8ByteSize = (octets tail).length + 1 := by
        rw [← length_octets_toList, hspelled, hlength, Nat.add_comm]
      have hdrop : (Token.operator op).spelling.length - 1 = tail.length := by
        rw [Token.spelling, hspelled]
        rfl
      have hwidth : offset + (Token.operator op).octetLength = offset + 1 + (octets tail).length := by
        rw [Token.octetLength, Token.spelling, hspelled, hlength, Nat.add_assoc]
      have hskip (state : OctetScan) := scanOctets_skip state (octets tail) (octets rest') (offset + 1)
      dsimp only
      rw [hdrop, hwidth, List.drop_left, octets_append]
      obtain ⟨depth, operandNext⟩ := st
      by_cases hdepth : depth = 0
      · cases operandNext with
        | true => simp [Stand.counts, Stand.next, hdepth, hsize, hskip]
        | false => simp [Stand.counts, Stand.next, hdepth, hsize, hskip]
      · simp [Stand.counts, Stand.next, hdepth, hsize, hskip]
  · obtain ⟨hne, hlarge⟩ := encode_of_le (Nat.not_lt.1 hc)
    rw [tokenAt_of_le (Nat.not_lt.1 hc), octets_cons, scanOctets_large hlarge hne]
    simp [Token.octetLength, Token.spelling, octets, Stand.counts, Stand.next]

/-- The scan through octets finds the operators that count. -/
theorem scanOctets_eq (s : List Char) :
    scanOctets 0 0 {} (octets s) = some (counted Token.octetLength 0 {} (tokens s)) := by
  have hscan (offset : Nat) (st : Stand) : scanOctets offset 0 st.toOctetScan (octets s) =
      some (counted Token.octetLength offset st (tokens s)) := by
    induction s using tokens.induct generalizing offset st with
    | case1 => rw [tokens]; rfl
    | case2 c rest ih => rw [tokens, counted, scanOctets_token, ih]; rfl
  exact hscan 0 {}

end scan

end ScriptBlocks.Expression
