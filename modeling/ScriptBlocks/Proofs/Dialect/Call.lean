import Mathlib.Data.List.Nodup
import ScriptBlocks.Proofs.Dialect.Shape
import ScriptBlocks.Proofs.Except
import ScriptBlocks.Proofs.Number.Numeral
import ScriptBlocks.Proofs.Text.Interleave

/-!
# Calls with arguments

Most statements are calls of a function whose arguments are digits, perhaps with a fraction. The
pattern of such a form lists the arguments with what stands behind each of them. In a call that was
written by the form the arguments are told apart by what stands between them, so the pattern finds
just those.

## Main definitions

* `Dialect.ArgumentKind`, `Dialect.Separator`, `Dialect.Argument` — the parts of a call
* `Dialect.callPattern`, `Dialect.readArguments`, `Dialect.writeArguments` — reading and writing
* `Dialect.ArgumentSpans` — the arguments that a text can be taken for

## Main statements

* `Dialect.spans_callPattern` — what the pattern of a call matches
* `Dialect.arguments_eq` — the arguments that were written are the only ones that are found
* `Dialect.gives_of_readArguments`, `Dialect.readArguments_eq` — the values that are read
-/

namespace ScriptBlocks

/-- A group that took part in a match once. -/
theorem Capture.group_ofPieces {before piece rest s : List Char} {groups : List (Nat × List Char)}
    {i : Nat} (hnodup : (groups.map Prod.fst).Nodup) (h : (i, s) ∈ groups) :
    (ofPieces before piece rest groups).group i = .ofList s := by
  have hmem : (i, String.ofList s) ∈ (ofPieces before piece rest groups).groups :=
    List.mem_map.2 ⟨(i, s), List.mem_reverse.2 h, rfl⟩
  have hfst : ((ofPieces before piece rest groups).groups.map Prod.fst).Nodup := by
    rw [ofPieces, List.map_map]
    change (groups.reverse.map Prod.fst).Nodup
    rw [List.map_reverse]
    exact List.nodup_reverse.2 hnodup
  have hfind := OrderedMap.find?_eq_some_iff.2
    (show (i, String.ofList s) ∈ (⟨_, hfst⟩ : OrderedMap Nat String).entries from hmem)
  change ((ofPieces before piece rest groups).group? i).getD "" = _
  rw [show (ofPieces before piece rest groups).group? i = some (.ofList s) from hfind]
  rfl

namespace Dialect

open Pattern

variable {before s t rest : List Char} {groups : List (Nat × List Char)}

/-! ### Arguments -/

/-- What an argument of a call may be. -/
inductive ArgumentKind where
  /-- Digits that are read as an integer. -/
  | integer
  /-- Digits that are kept as they are. -/
  | digits
  /-- Digits with an optional fraction that are kept as they are. -/
  | decimal

namespace ArgumentKind

variable {k : ArgumentKind} {c : Capture} {i : Nat} {v : Value}

def pattern : ArgumentKind → Pattern
  | integer | digits => Pattern.digits
  | decimal => decimalPattern

/-- The value in a group. -/
def read (c : Capture) (i : Nat) : ArgumentKind → Except ReadFault Value
  | integer => Dialect.integer c i
  | digits | decimal => .ok (.string (c.group i))

/-- The characters of an argument. -/
def includes : ArgumentKind → Char → Bool
  | integer, c | digits, c => Text.isDigit c
  | decimal, c => Text.isDigit c || c = '.'

/-- The texts of an argument. -/
def Accepts : ArgumentKind → List Char → Prop
  | integer, s | digits, s => IsRun Text.isDigit s
  | decimal, s => ∃ whole places, s = whole ++ places ∧ IsRun Text.isDigit whole ∧
      ((∃ ds, places = '.' :: ds ∧ IsRun Text.isDigit ds) ∨ places = [])

/-- The values of an argument. -/
def IsValue : ArgumentKind → Value → Prop
  | integer, v => ∃ n < integerLimit, v = .int (.ofNat n)
  | digits, v => ∃ s, v = .string (.ofList s) ∧ digits.Accepts s
  | decimal, v => ∃ s, v = .string (.ofList s) ∧ decimal.Accepts s

theorem spans_pattern : k.pattern.Spans before s rest groups ↔ k.Accepts s ∧ groups = [] := by
  cases k with
  | integer => exact spans_digits
  | digits => exact spans_digits
  | decimal =>
    constructor
    · rintro ⟨whole, places, _, _, rfl, rfl, hwhole, hplaces⟩
      obtain ⟨hdigits, rfl⟩ := spans_digits.1 hwhole
      obtain ⟨hfraction, rfl⟩ := spans_places.1 hplaces
      exact ⟨⟨whole, places, rfl, hdigits, hfraction⟩, rfl⟩
    · rintro ⟨⟨whole, places, rfl, hdigits, hfraction⟩, rfl⟩
      exact ⟨whole, places, [], [], rfl, rfl, spans_digits.2 ⟨hdigits, rfl⟩,
        spans_places.2 ⟨hfraction, rfl⟩⟩

theorem isPlain_of_includes {d : Char} (h : k.includes d = true) : Text.isPlain d = true := by
  cases k with
  | integer => exact Text.isPlain_of_isDigit h
  | digits => exact Text.isPlain_of_isDigit h
  | decimal =>
    rcases Bool.or_eq_true_iff.1 h with h | h
    · exact Text.isPlain_of_isDigit h
    · rw [of_decide_eq_true h]
      decide

theorem Accepts.isRun (h : k.Accepts s) : IsRun k.includes s := by
  cases k with
  | integer => exact h
  | digits => exact h
  | decimal =>
    obtain ⟨whole, places, rfl, hwhole, hplaces⟩ := h
    have hdigit {ds : List Char} (hds : IsRun Text.isDigit ds) :
        ∀ d ∈ ds, decimal.includes d = true := fun d hd => Bool.or_eq_true_iff.2 (.inl (hds.2 d hd))
    refine ⟨List.append_ne_nil_of_left_ne_nil hwhole.1 _,
      List.forall_mem_append.2 ⟨hdigit hwhole, ?_⟩⟩
    rcases hplaces with ⟨ds, rfl, hds⟩ | rfl
    · exact List.forall_mem_cons.2 ⟨by decide, hdigit hds⟩
    · exact fun _ h => absurd h List.not_mem_nil

/-- The value of an accepted group. -/
theorem isValue_of_read (h : k.read c i = .ok v) (hgroup : k.Accepts (c.group i).toList) :
    k.IsValue v := by
  cases k with
  | integer =>
    change Dialect.integer c i = .ok v at h
    rw [Dialect.integer, Text.readInteger] at h
    cases hread : Text.readIntegerFrom 0 (c.group i).toList with
    | error fault =>
      rw [hread] at h
      cases h
    | ok n =>
      rw [hread] at h
      refine ⟨n, ?_, (Except.ok.inj h).symm⟩
      exact Text.lt_of_readIntegerFrom (by decide) hread
  | digits => exact ⟨_, by rw [String.ofList_toList]; exact (Except.ok.inj h).symm, hgroup⟩
  | decimal => exact ⟨_, by rw [String.ofList_toList]; exact (Except.ok.inj h).symm, hgroup⟩

theorem toText_integer {n : Nat} (hn : n < integerLimit) :
    (Value.int (.ofNat n)).toText = .ofList (Nat.toDigits 10 n) := by
  rw [← toList_toString_nat, String.ofList_toList]
  change toString (Int64.ofNat n).toInt = toString n
  rw [Int64.toInt_ofNat_of_lt hn]
  rfl

theorem IsValue.accepts (h : k.IsValue v) : k.Accepts v.toText.toList := by
  cases k with
  | integer =>
    obtain ⟨n, hn, rfl⟩ := h
    rw [toText_integer hn, String.toList_ofList]
    exact ⟨Nat.toDigits_ne_nil, fun _ hc => Text.isDigit_of_ascii (isDigit_of_mem_toDigits hc)⟩
  | digits =>
    obtain ⟨s, rfl, hs⟩ := h
    rwa [Value.toText, String.toList_ofList]
  | decimal =>
    obtain ⟨s, rfl, hs⟩ := h
    rwa [Value.toText, String.toList_ofList]

/-- A value is read off its own text. -/
theorem IsValue.read (h : k.IsValue v) (hgroup : c.group i = v.toText) : k.read c i = .ok v := by
  cases k with
  | integer =>
    obtain ⟨n, hn, rfl⟩ := h
    rw [toText_integer hn] at hgroup
    change Dialect.integer c i = _
    rw [Dialect.integer, hgroup, String.toList_ofList, Text.readInteger_toDigits hn]
  | digits =>
    obtain ⟨s, rfl, -⟩ := h
    exact congrArg (fun s => Except.ok (Value.string s)) hgroup
  | decimal =>
    obtain ⟨s, rfl, -⟩ := h
    exact congrArg (fun s => Except.ok (Value.string s)) hgroup

end ArgumentKind

/-- What stands behind an argument. -/
inductive Separator where
  /-- A comma with blanks behind it; one blank is written. -/
  | comma
  | literal (s : String)

namespace Separator

def pattern : Separator → Pattern
  | comma => Dialect.comma
  | literal s => lit s

/-- What is written. -/
def text : Separator → List Char
  | comma => [',', ' ']
  | literal s => s.toList

/-- What is read. -/
def Accepts : Separator → List Char → Prop
  | comma, s => ∃ bl, s = ',' :: bl ∧ ∀ c ∈ bl, Text.isWhite c = true
  | literal t, s => s = t.toList

theorem spans_pattern {p : Separator} :
    p.pattern.Spans before s rest groups ↔ p.Accepts s ∧ groups = [] := by
  cases p with
  | comma =>
    rw [pattern, spans_comma]
    constructor
    · rintro ⟨bl, rfl, hbl, rfl⟩
      exact ⟨⟨bl, rfl, hbl⟩, rfl⟩
    · rintro ⟨⟨bl, rfl, hbl⟩, rfl⟩
      exact ⟨bl, rfl, hbl, rfl⟩
  | literal t => exact spans_lit

theorem accepts_text (p : Separator) : p.Accepts p.text := by
  cases p with
  | comma => exact ⟨[' '], rfl, by decide⟩
  | literal t => rfl

end Separator

/-- An argument of a call: the field that it becomes, and what stands behind it. The default is
written where the field is empty. -/
structure Argument where
  name : String
  kind : ArgumentKind
  default : String
  behind : Separator

variable {args : List Argument} {texts : List (List Char)} {pairs : List (String × Value)} {i : Nat}

/-! ### Patterns -/

/-- The patterns of arguments, whose groups are numbered from `i` on. -/
def argumentPatterns : Nat → List Argument → List Pattern
  | _, [] => []
  | i, a :: args => .group i a.kind.pattern :: a.behind.pattern :: argumentPatterns (i + 1) args

/-- The pattern of a call. -/
def callPattern (function : String) (args : List Argument) : Pattern :=
  .all (lit function :: argumentPatterns 1 args)

/-- The text can be taken for arguments, with these groups. -/
def ArgumentSpans : Nat → List Argument → List Char → List (Nat × List Char) → Prop
  | _, [], s, groups => s = [] ∧ groups = []
  | i, a :: args, s, groups => ∃ t p tail gs, s = t ++ (p ++ tail) ∧ groups = (i, t) :: gs ∧
      a.kind.Accepts t ∧ a.behind.Accepts p ∧ ArgumentSpans (i + 1) args tail gs

theorem spans_argumentPatterns : (all (argumentPatterns i args)).Spans before s rest groups ↔
    ArgumentSpans i args s groups := by
  induction args generalizing i before s groups with
  | nil => exact spans_all_nil
  | cons a args ih =>
    rw [argumentPatterns, spans_group_cons, ArgumentSpans]
    constructor
    · rintro ⟨t, v, _, _, rfl, rfl, ht, hv⟩
      obtain ⟨htext, rfl⟩ := ArgumentKind.spans_pattern.1 ht
      obtain ⟨p, tail, _, gs, rfl, rfl, hp, htail⟩ := spans_all_cons.1 hv
      obtain ⟨hbehind, rfl⟩ := Separator.spans_pattern.1 hp
      exact ⟨t, p, tail, gs, rfl, rfl, htext, hbehind, ih.1 htail⟩
    · rintro ⟨t, p, tail, gs, rfl, rfl, htext, hbehind, htail⟩
      refine ⟨t, p ++ tail, [], gs, rfl, rfl, ArgumentKind.spans_pattern.2 ⟨htext, rfl⟩, ?_⟩
      exact spans_all_cons.2 ⟨p, tail, [], gs, rfl, rfl, Separator.spans_pattern.2 ⟨hbehind, rfl⟩,
        ih.2 htail⟩

theorem spans_callPattern {function : String} :
    (callPattern function args).Spans before s rest groups ↔
      ∃ t, s = function.toList ++ t ∧ ArgumentSpans 1 args t groups := by
  rw [callPattern, spans_lit_cons]
  simp only [spans_argumentPatterns]

theorem map_fst_of_argumentSpans (h : ArgumentSpans i args s groups) :
    groups.map Prod.fst = List.range' i args.length := by
  induction args generalizing i s groups with
  | nil =>
    obtain ⟨-, rfl⟩ := h
    rfl
  | cons a args ih =>
    obtain ⟨t, p, tail, gs, -, rfl, -, -, htail⟩ := h
    rw [List.map_cons, ih htail, List.length_cons, List.range'_succ]

/-! ### Writing -/

/-- The arguments as they are written. -/
def writeArguments : List Argument → List (List Char) → List Char
  | a :: args, t :: texts => t ++ (a.behind.text ++ writeArguments args texts)
  | _, _ => []

/-- A call with the fields of a block for its arguments. -/
def writeCall (function : String) (args : List Argument) (p : Parts) : List Char :=
  function.toList ++ writeArguments args (args.map fun a => (p.fieldOr a.name a.default).toList)

/-- Texts as the groups from a number on. -/
def numbered : Nat → List (List Char) → List (Nat × List Char)
  | _, [] => []
  | i, t :: texts => (i, t) :: numbered (i + 1) texts

/-- What stands behind each argument ends it, and the last one is the parenthesis that closes the
call. -/
def IsClosed : List Argument → Prop
  | [] => False
  | [a] => a.behind.text = [')']
  | a :: args => (∃ c cs, a.behind.text = c :: cs ∧ a.kind.includes c = false) ∧ IsClosed args

theorem exists_writeArguments_eq (hclosed : IsClosed args)
    (htexts : List.Forall₂ (fun a t => a.kind.Accepts t) args texts) :
    ∃ s, writeArguments args texts = s ++ [')'] := by
  induction htexts with
  | nil => exact hclosed.elim
  | @cons a t args texts _ hargs ih =>
    cases hargs with
    | nil =>
      have hlast : a.behind.text = [')'] := hclosed
      exact ⟨t, by rw [writeArguments, hlast]; rfl⟩
    | cons =>
      obtain ⟨s, hs⟩ := ih hclosed.2
      refine ⟨t ++ (a.behind.text ++ s), ?_⟩
      rw [writeArguments, hs, List.append_assoc, List.append_assoc]

theorem argumentSpans_writeArguments (i : Nat)
    (h : List.Forall₂ (fun a t => a.kind.Accepts t) args texts) :
    ArgumentSpans i args (writeArguments args texts) (numbered i texts) := by
  induction h generalizing i with
  | nil => exact ⟨rfl, rfl⟩
  | cons ha _ ih => exact ⟨_, _, _, _, rfl, rfl, ha, Separator.accepts_text _, ih (i + 1)⟩

/-- An argument ends in front of a character of no argument of its kind. -/
theorem argument_eq {k : ArgumentKind} {s' a b : List Char} {c : Char} (hs : k.Accepts s)
    (hs' : k.Accepts s') (hc : k.includes c = false) (h : s ++ (c :: a) = s' ++ (c :: b)) :
    s = s' ∧ a = b := by
  obtain ⟨rfl, htail⟩ := append_inj_of_run hs.isRun.2 hs'.isRun.2 (head?_cons_eq_false hc a)
    (head?_cons_eq_false hc b) h
  exact ⟨rfl, (List.cons.inj htail).2⟩

/-- The blanks in front of an argument end where it starts. -/
theorem isWhite_head?_of_accepts {k : ArgumentKind} {c : Char} (h : k.Accepts s)
    (hc : (s ++ rest).head? = some c) : Text.isWhite c = false := by
  rw [List.head?_append_of_ne_nil _ h.isRun.1] at hc
  have hplain := ArgumentKind.isPlain_of_includes (h.isRun.2 c (List.mem_of_mem_head? hc))
  exact (Text.isPlain_iff.1 hplain).2

/-- What was written between two arguments is found there. -/
theorem separator_eq {p : Separator} {q a b : List Char} (hq : p.Accepts q)
    (ha : ∀ c, a.head? = some c → Text.isWhite c = false)
    (hb : ∀ c, b.head? = some c → Text.isWhite c = false) (h : p.text ++ a = q ++ b) : a = b := by
  cases p with
  | comma =>
    obtain ⟨bl, rfl, hbl⟩ := hq
    exact (append_inj_of_run (x := [' ']) (by decide) hbl ha hb (List.cons.inj h).2).2
  | literal t =>
    obtain rfl : q = t.toList := hq
    exact List.append_cancel_left h

theorem Separator.Accepts.head {p : Separator} {q : List Char} {c : Char} {cs : List Char}
    (h : p.Accepts q) (htext : p.text = c :: cs) : ∃ ds, q = c :: ds := by
  cases p with
  | comma =>
    obtain ⟨bl, rfl, -⟩ := h
    obtain rfl := (List.cons.inj htext).1
    exact ⟨bl, rfl⟩
  | literal t => exact ⟨cs, h.trans htext⟩

/-- Arguments that were written are the only ones that are found. -/
theorem arguments_eq (hclosed : IsClosed args)
    (htexts : List.Forall₂ (fun a t => a.kind.Accepts t) args texts)
    (h : ArgumentSpans i args s groups) (heq : writeArguments args texts = s ++ rest) :
    groups = numbered i texts ∧ rest = [] := by
  induction htexts generalizing i s groups with
  | nil => exact hclosed.elim
  | @cons a t args texts ha hargs ih =>
    obtain ⟨t', p, tail, gs, rfl, rfl, ha', hp, htail⟩ := h
    rw [writeArguments, List.append_assoc, List.append_assoc] at heq
    cases hargs with
    | nil =>
      -- the last argument: behind it stands the parenthesis, and nothing else
      have hlast : a.behind.text = [')'] := hclosed
      obtain ⟨rfl, rfl⟩ := htail
      obtain ⟨ds, rfl⟩ := hp.head hlast
      have hparenthesis : a.kind.includes ')' = false := by
        rw [Bool.eq_false_iff]
        intro h
        exact absurd (ArgumentKind.isPlain_of_includes h) (by decide)
      rw [hlast] at heq
      obtain ⟨rfl, hrest⟩ := argument_eq ha ha' hparenthesis heq
      have hnil := List.append_eq_nil_iff.1 hrest.symm
      exact ⟨rfl, (List.append_eq_nil_iff.1 hnil.2).2⟩
    | @cons b u args texts hb hargs =>
      obtain ⟨⟨c, cs, htext, hc⟩, hclosed⟩ := hclosed
      obtain ⟨ds, rfl⟩ := hp.head htext
      rw [htext] at heq
      obtain ⟨rfl, hbehind⟩ := argument_eq ha ha' hc heq
      obtain ⟨u', q, tail', gs', rfl, rfl, hb', hq, htail'⟩ := id htail
      have hseparator : a.behind.text ++ writeArguments (b :: args) (u :: texts) =
          (c :: ds) ++ (u' ++ (q ++ tail') ++ rest) := by
        rw [htext]
        exact congrArg (c :: ·) hbehind
      have hnext := separator_eq hp (fun d hd => isWhite_head?_of_accepts hb hd)
        (fun d hd => isWhite_head?_of_accepts hb' (by rwa [List.append_assoc] at hd)) hseparator
      obtain ⟨hgs, hrest⟩ := ih hclosed htail hnext
      exact ⟨congrArg ((i, t) :: ·) hgs, hrest⟩

/-! ### Reading -/

/-- The fields for arguments, whose groups are numbered from `i` on. -/
def readArguments : Nat → List Argument → Capture → Except ReadFault (List (String × Value))
  | _, [], _ => .ok []
  | i, a :: args, c => do
    let v ← a.kind.read c i
    let pairs ← readArguments (i + 1) args c
    return (a.name, v) :: pairs

/-- The field is one that the argument gives. -/
def Argument.Gives (a : Argument) (e : String × Value) : Prop := e.1 = a.name ∧ a.kind.IsValue e.2

/-- The texts of values. -/
def textsOf (pairs : List (String × Value)) : List (List Char) :=
  pairs.map fun e => e.2.toText.toList

theorem gives_of_readArguments {c : Capture} (h : ArgumentSpans i args s groups)
    (hgroups : ∀ e ∈ groups, c.group e.1 = .ofList e.2)
    (hread : readArguments i args c = .ok pairs) : List.Forall₂ Argument.Gives args pairs := by
  induction args generalizing i s groups pairs with
  | nil =>
    obtain rfl := Except.ok.inj hread
    exact .nil
  | cons a args ih =>
    obtain ⟨t, p, tail, gs, -, rfl, ht, -, htail⟩ := h
    obtain ⟨hgroup, hgroups⟩ := List.forall_mem_cons.1 hgroups
    simp only [readArguments, bind_eq_ok, pure_eq_ok] at hread
    obtain ⟨v, hv, rest, hrest, rfl⟩ := hread
    refine .cons ⟨rfl, ArgumentKind.isValue_of_read hv ?_⟩ (ih htail hgroups hrest)
    rwa [hgroup, String.toList_ofList]

theorem accepts_of_gives (h : List.Forall₂ Argument.Gives args pairs) :
    List.Forall₂ (fun a t => a.kind.Accepts t) args (textsOf pairs) := by
  induction h with
  | nil => exact .nil
  | cons ha _ ih => exact .cons ha.2.accepts ih

theorem readArguments_eq {c : Capture} (h : List.Forall₂ Argument.Gives args pairs)
    (hgroups : ∀ e ∈ numbered i (textsOf pairs), c.group e.1 = .ofList e.2) :
    readArguments i args c = .ok pairs := by
  induction h generalizing i with
  | nil => rfl
  | @cons a e args pairs ha _ ih =>
    obtain ⟨name, v⟩ := e
    obtain ⟨rfl, hv⟩ := ha
    obtain ⟨hgroup, hgroups⟩ := List.forall_mem_cons.1 hgroups
    have hread : a.kind.read c i = .ok v := by
      apply hv.read
      rw [hgroup, String.ofList_toList]
    rw [readArguments, hread]
    have hrest : readArguments (i + 1) args c = .ok pairs := ih hgroups
    rw [hrest]
    rfl

/-- A call is written with the values that a block has in its fields. -/
theorem writeCall_eq {p : Parts} (function : String) (h : List.Forall₂ Argument.Gives args pairs)
    (hfields : ∀ e ∈ pairs, p.fields.find? e.1 = some e.2) :
    writeCall function args p = function.toList ++ writeArguments args (textsOf pairs) := by
  refine congrArg (fun texts => function.toList ++ writeArguments args texts) ?_
  induction h with
  | nil => rfl
  | @cons a e args pairs ha _ ih =>
    obtain ⟨name, v⟩ := e
    obtain ⟨rfl, hv⟩ := ha
    obtain ⟨hfield, hfields⟩ := List.forall_mem_cons.1 hfields
    have hne : v.toText ≠ "" := by
      intro h
      apply hv.accepts.isRun.1
      rw [h]
      rfl
    have htext : p.fields.text a.name = v.toText := by
      rw [Fields.text, hfield, Option.map_some, Option.getD_some]
    have hfirst : p.fieldOr a.name a.default = v.toText := by
      rw [Parts.fieldOr, Fields.textOr, htext, if_neg hne]
    rw [List.map_cons, hfirst, ih hfields]
    rfl

end Dialect

end ScriptBlocks
