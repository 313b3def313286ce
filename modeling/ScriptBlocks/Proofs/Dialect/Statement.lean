import ScriptBlocks.Proofs.Dialect.Call
import ScriptBlocks.Proofs.Dialect.Landmark
import ScriptBlocks.Proofs.Dialect.Recognition
import ScriptBlocks.Proofs.Reading.Lines

/-!
# Statements that come back

A statement without slots is faithful if its blocks are written as one line, and the line is read as
a block of the same form with the same fields. Calls with digits for arguments are: the pattern finds
the arguments that were written, and no form before it finds its words among them.

## Main definitions

* `Form.Yields` — the fields that a form reads off some text
* `Dialect.ReadsAs` — the form that a text goes to, and the fields that are read off it
* `Dialect.IsFaithful` — the blocks of a form come back from their text
* `Dialect.IsWorded` — a text of words with digits in between
* `Dialect.IsCall` — the form of a call with arguments

## Main statements

* `Dialect.IsCall.isFaithful` — calls are faithful
-/

namespace ScriptBlocks

/-- The form matches in some text and reads these fields off it. -/
def Form.Yields (form : Form) (given : Fields) : Prop :=
  ∃ text c, form.matchIn text = some c ∧ form.readFields c = .ok given

namespace Dialect

/-- The text is not passed over, and it goes to the form, which reads these fields off it. -/
def ReadsAs (text : String) (form : Form) (given : Fields) : Prop :=
  ({} : ReadingOptions).ignores text = false ∧
    ∃ c, vocabulary.firstMatch text = some (form, c) ∧ form.readFields c = .ok given

/-- A form of statements without slots that are written as a line from which the same fields are read
for the same form. -/
structure IsFaithful (form : Form) : Prop where
  get_eq : vocabulary.get form.name = .ok form
  construction_eq : form.construction = .bare
  shape_eq : form.template.shape = .statement true true
  slots_eq : form.template.args.filterMap Slot.ofArg? = []
  exists_line {given : Fields} : form.Yields given → ∃ line, Text.IsLine line ∧
    Text.Trimmed line ∧ ReadsAs (.ofList line) form given ∧
      ∀ p : Parts, (∀ e ∈ given.entries, p.fields.find? e.1 = some e.2) →
        form.write p = .ok (.statement (.ofList (line ++ ['\n'])))

theorem ReadsAs.yields {text : String} {form : Form} {given : Fields}
    (h : ReadsAs text form given) : form.Yields given := by
  obtain ⟨-, c, hmatch, hread⟩ := h
  exact ⟨text, c, (Vocabulary.of_firstMatch hmatch).2, hread⟩

variable {form : Form} {function : String} {args : List Argument} {s : List Char}
  {extra pairs : List (String × Value)} {texts words : List (List Char)} {word : List Char}

/-! ### Words and digits -/

/-- Whatever stands in the text and has no digits stands in one of the words. -/
def IsWorded (words : List (List Char)) (s : List Char) : Prop :=
  ∀ word : List Char, (∀ c ∈ word, Text.isDigit c = false) → word <:+: s → ∃ l ∈ words, word <:+: l

theorem isWorded_interleave {first : List Char} {rest : List (List Char × List Char)}
    (h : ∀ e ∈ rest, IsRun Text.isDigit e.1 ∧ e.2 ∈ words) :
    IsWorded (first :: words) (Text.interleave first rest) := by
  intro word hword hin
  have hruns : ∀ e ∈ rest, e.1 ≠ [] ∧ ∀ c ∈ e.1, c ∉ word := by
    intro e he
    obtain ⟨⟨hne, hdigits⟩, -⟩ := h e he
    refine ⟨hne, fun c hc hmem => ?_⟩
    have hdigit := hdigits c hc
    rw [hword c hmem] at hdigit
    exact absurd hdigit Bool.false_ne_true
  rcases Text.infix_of_infix_interleave hruns hin with hin | ⟨e, he, hin⟩
  · exact ⟨first, List.mem_cons_self, hin⟩
  · exact ⟨e.2, List.mem_cons_of_mem _ (h e he).2, hin⟩

namespace IsWorded

/-- A text stays on one line if its words do. -/
theorem isLine (h : IsWorded words s) (hwords : ∀ l ∈ words, Text.IsLine l) : Text.IsLine s := by
  have habsent {c : Char} (hc : Text.isDigit c = false) (hwords : ∀ l ∈ words, c ∉ l) : c ∉ s := by
    intro hmem
    obtain ⟨a, b, rfl⟩ := List.append_of_mem hmem
    obtain ⟨l, hl, hin⟩ := h [c] (List.forall_mem_singleton.2 hc) ⟨a, b, by simp⟩
    exact hwords l hl (hin.subset List.mem_cons_self)
  exact ⟨habsent (by decide) fun l hl => (hwords l hl).1,
    habsent (by decide) fun l hl => (hwords l hl).2⟩

/-- No landmark has a digit in it. -/
theorem isDigit_landmarks : ∀ e ∈ landmarks, ∀ words ∈ e.2, ∀ word ∈ words,
    ∀ c ∈ word.toList, Text.isDigit c = false := by
  decide +kernel

/-- A text goes to the form that matches if its words have none of the landmarks of the forms
before. -/
theorem firstMatch_eq (h : IsWorded words s) {i : Nat} (hform : forms[i]? = some form) (hi : i ≤ 26)
    (habsent : ∀ e ∈ landmarks.take i, ∃ marks ∈ e.2, ∀ mark ∈ marks, ∀ l ∈ words,
      ¬ mark.toList <:+: l) {c : Capture} (hmatch : form.matchIn (.ofList s) = some c) :
    vocabulary.firstMatch (.ofList s) = some (form, c) := by
  refine firstMatch_of_landmarks i hform hi ?_ hmatch
  intro e he
  obtain ⟨marks, hmarks, hmark⟩ := habsent e he
  refine ⟨marks, hmarks, fun mark hmem hin => ?_⟩
  have hdigit := isDigit_landmarks e (List.mem_of_mem_take he) marks hmarks mark hmem
  obtain ⟨l, hl, hin⟩ := h mark.toList hdigit hin
  exact hmark mark hmem l hl hin

end IsWorded

/-- A text that ends in a parenthesis and starts with a character that means nothing by itself. -/
def IsEnclosed (s : List Char) : Prop :=
  ∃ c mid, s = c :: (mid ++ [')']) ∧ c ≠ '#' ∧ Text.isWhite c = false

theorem IsEnclosed.trimmed (h : IsEnclosed s) : Text.Trimmed s := by
  obtain ⟨c, mid, rfl, -, hc⟩ := h
  constructor
  · intro d hd
    obtain rfl := Option.some.inj hd
    exact hc
  · intro d hd
    rw [← List.cons_append, List.getLast?_concat] at hd
    obtain rfl := Option.some.inj hd
    decide

theorem IsEnclosed.ignores_eq (h : IsEnclosed s) :
    ({} : ReadingOptions).ignores (.ofList s) = false := by
  obtain ⟨c, mid, rfl, hc, -⟩ := h
  apply Workspace.ignores_eq_false hc
  -- the word that means nothing does not end in a parenthesis
  intro heq
  have hlast := congrArg List.getLast? heq
  rw [← List.cons_append, List.getLast?_concat] at hlast
  exact absurd (Option.some.inj hlast) (by decide)

/-! ### The text of a call -/

/-- The words of a call, between which there are digits. -/
def callWords (function : String) (args : List Argument) : List (List Char) :=
  function.toList :: ['.'] :: args.map fun a => a.behind.text

/-- The text of an argument is a run of digits, or two with a point in between. -/
theorem exists_interleave_argument {k : ArgumentKind} {t : List Char} (h : k.Accepts t)
    (first literal : List Char) (rest : List (List Char × List Char)) :
    ∃ runs, first ++ (t ++ Text.interleave literal rest) = Text.interleave first (runs ++ rest) ∧
      ∀ e ∈ runs, IsRun Text.isDigit e.1 ∧ (e.2 = ['.'] ∨ e.2 = literal) := by
  have hone (ht : IsRun Text.isDigit t) : ∃ runs,
      first ++ (t ++ Text.interleave literal rest) = Text.interleave first (runs ++ rest) ∧
        ∀ e ∈ runs, IsRun Text.isDigit e.1 ∧ (e.2 = ['.'] ∨ e.2 = literal) := by
    refine ⟨[(t, literal)], (Text.interleave_cons ..).symm, ?_⟩
    intro e he
    rw [List.mem_singleton.1 he]
    exact ⟨ht, .inr rfl⟩
  cases k with
  | integer => exact hone h
  | digits => exact hone h
  | decimal =>
    obtain ⟨whole, places, rfl, hwhole, ⟨ds, rfl, hds⟩ | rfl⟩ := h
    · refine ⟨[(whole, ['.']), (ds, literal)], ?_, ?_⟩
      · change _ = Text.interleave first ((whole, ['.']) :: (ds, literal) :: rest)
        rw [Text.interleave_cons, Text.interleave_cons, List.append_assoc]
        rfl
      · rw [List.forall_mem_cons, List.forall_mem_singleton]
        exact ⟨⟨hwhole, .inl rfl⟩, hds, .inr rfl⟩
    · rw [List.append_nil] at hone ⊢
      exact hone hwhole

/-- A written call is words with digits in between. -/
theorem exists_interleave_call (htexts : List.Forall₂ (fun a t => a.kind.Accepts t) args texts)
    (first : List Char) : ∃ rest, first ++ writeArguments args texts = Text.interleave first rest ∧
      ∀ e ∈ rest, IsRun Text.isDigit e.1 ∧ e.2 ∈ ['.'] :: args.map fun a => a.behind.text := by
  induction htexts generalizing first with
  | nil => exact ⟨[], rfl, fun _ h => absurd h List.not_mem_nil⟩
  | @cons a t args texts ha _ ih =>
    obtain ⟨rest, htail, hrest⟩ := ih a.behind.text
    obtain ⟨runs, heq, hruns⟩ := exists_interleave_argument ha first a.behind.text rest
    refine ⟨runs ++ rest, ?_, List.forall_mem_append.2 ⟨?_, ?_⟩⟩
    · rw [writeArguments, htail, heq]
    · intro e he
      obtain ⟨hrun, hliteral⟩ := hruns e he
      refine ⟨hrun, ?_⟩
      rcases hliteral with hliteral | hliteral
      · rw [hliteral]
        exact List.mem_cons_self
      · rw [hliteral]
        exact List.mem_cons_of_mem _ List.mem_cons_self
    · intro e he
      obtain ⟨hrun, hmem⟩ := hrest e he
      refine ⟨hrun, ?_⟩
      rcases List.mem_cons.1 hmem with hmem | hmem
      · exact hmem ▸ List.mem_cons_self
      · exact List.mem_cons_of_mem _ (List.mem_cons_of_mem _ hmem)

theorem isWorded_call (htexts : List.Forall₂ (fun a t => a.kind.Accepts t) args texts) :
    IsWorded (callWords function args) (function.toList ++ writeArguments args texts) := by
  obtain ⟨rest, heq, hrest⟩ := exists_interleave_call htexts function.toList
  rw [heq]
  exact isWorded_interleave hrest

theorem isEnclosed_call (hclosed : IsClosed args)
    (hhead : ∃ c cs, function.toList = c :: cs ∧ c ≠ '#' ∧ Text.isWhite c = false)
    (htexts : List.Forall₂ (fun a t => a.kind.Accepts t) args texts) :
    IsEnclosed (function.toList ++ writeArguments args texts) := by
  obtain ⟨c, cs, hfunction, hc⟩ := hhead
  obtain ⟨t, ht⟩ := exists_writeArguments_eq hclosed htexts
  refine ⟨c, cs ++ t, ?_, hc⟩
  rw [hfunction, ht, List.cons_append, List.append_assoc]

/-! ### The forms of calls -/

/-- The form matches a call of the function, its fields are the arguments and a few constants, and
its blocks are written as the call. -/
structure IsCall (form : Form) (function : String) (args : List Argument)
    (extra : List (String × Value)) : Prop where
  spans_iff {before s rest : List Char} {groups : List (Nat × List Char)} :
    form.pattern.Spans before s rest groups ↔
      (callPattern function args).Spans before s rest groups
  read_eq (c : Capture) : form.read c =
    (readArguments 1 args c).map fun pairs => fields (pairs ++ extra)
  write_eq (p : Parts) : (∀ e ∈ extra, p.fields.find? e.1 = some e.2) →
    form.write p = lines (.ofList (writeCall function args p ++ ['\n']))
  closed : IsClosed args
  nodup : (args.map Argument.name ++ extra.map Prod.fst).Nodup
  head : ∃ c cs, function.toList = c :: cs ∧ c ≠ '#' ∧ Text.isWhite c = false
  isLine : ∀ l ∈ callWords function args, Text.IsLine l

namespace IsCall

theorem map_fst_of_gives (h : List.Forall₂ Argument.Gives args pairs) :
    pairs.map Prod.fst = args.map Argument.name := by
  induction h with
  | nil => rfl
  | cons ha _ ih => rw [List.map_cons, List.map_cons, ha.1, ih]

/-- The groups of a capture, where the text was taken for arguments. -/
theorem group_of_argumentSpans {before s t rest : List Char} {groups : List (Nat × List Char)}
    (h : ArgumentSpans 1 args t groups) :
    ∀ e ∈ groups, (Capture.ofPieces before s rest groups).group e.1 = .ofList e.2 := by
  rintro ⟨i, u⟩ he
  apply Capture.group_ofPieces _ he
  rw [map_fst_of_argumentSpans h]
  exact List.nodup_range'

/-- What the form reads are values of its arguments. -/
theorem of_yields (h : IsCall form function args extra) {given : Fields}
    (hgiven : form.Yields given) :
    ∃ pairs, List.Forall₂ Argument.Gives args pairs ∧ given = fields (pairs ++ extra) := by
  obtain ⟨text, c, hmatch, hread⟩ := hgiven
  rw [← String.ofList_toList (s := text)] at hmatch
  obtain ⟨before, s, rest, groups, -, hspans, rfl⟩ := Form.spans_of_matchIn hmatch
  obtain ⟨t, -, harguments⟩ := spans_callPattern.1 (h.spans_iff.1 hspans)
  rw [Form.readFields, h.read_eq] at hread
  cases hpairs : readArguments 1 args (.ofPieces before s rest groups) with
  | error fault =>
    rw [hpairs] at hread
    cases hread
  | ok pairs =>
    rw [hpairs] at hread
    refine ⟨pairs, ?_, (Except.ok.inj hread).symm⟩
    exact gives_of_readArguments harguments (group_of_argumentSpans harguments) hpairs

/-- The written call is matched as a whole, and the values in it are read. -/
theorem matchIn_call (h : IsCall form function args extra)
    (hpairs : List.Forall₂ Argument.Gives args pairs) :
    ∃ c, form.matchIn (.ofList (function.toList ++ writeArguments args (textsOf pairs))) = some c ∧
      form.readFields c = .ok (fields (pairs ++ extra)) := by
  have htexts := accepts_of_gives hpairs
  have hspans : form.pattern.Spans [] (function.toList ++ writeArguments args (textsOf pairs)) []
      (numbered 1 (textsOf pairs)) :=
    h.spans_iff.2 (spans_callPattern.2 ⟨_, rfl, argumentSpans_writeArguments 1 htexts⟩)
  have hunique {piece rest : List Char} {groups : List (Nat × List Char)}
      (heq : function.toList ++ writeArguments args (textsOf pairs) = piece ++ rest)
      (hpiece : form.pattern.Spans [] piece rest groups) :
      groups = numbered 1 (textsOf pairs) ∧ rest = [] := by
    obtain ⟨t, rfl, harguments⟩ := spans_callPattern.1 (h.spans_iff.1 hpiece)
    rw [List.append_assoc] at heq
    exact arguments_eq h.closed htexts harguments (List.append_cancel_left heq)
  obtain ⟨groups, hgroups, hmatch⟩ := Form.matchWhole_of_spans hspans fun piece rest groups heq hpiece =>
    (hunique heq hpiece).2
  obtain ⟨rfl, -⟩ := hunique (List.append_nil _).symm hgroups
  rw [Form.matchWhole_eq, Option.filter_eq_some_iff] at hmatch
  refine ⟨_, hmatch.1, readFields_eq_ok ?_⟩
  have hgroup : ∀ e ∈ numbered 1 (textsOf pairs), (Capture.ofPieces []
      (function.toList ++ writeArguments args (textsOf pairs)) []
      (numbered 1 (textsOf pairs))).group e.1 = .ofList e.2 :=
    group_of_argumentSpans (argumentSpans_writeArguments 1 htexts)
  rw [h.read_eq, readArguments_eq hpairs hgroup]
  rfl

/-- Blocks of calls come back from their text if the forms before theirs find nothing in it. -/
theorem isFaithful (h : IsCall form function args extra) {i : Nat} (hform : forms[i]? = some form)
    (hi : i ≤ 26) (habsent : ∀ e ∈ landmarks.take i, ∃ marks ∈ e.2, ∀ mark ∈ marks,
      ∀ l ∈ callWords function args, ¬ mark.toList <:+: l)
    (hget : vocabulary.get form.name = .ok form) (hconstruction : form.construction = .bare)
    (hshape : form.template.shape = .statement true true)
    (hslots : form.template.args.filterMap Slot.ofArg? = []) : IsFaithful form where
  get_eq := hget
  construction_eq := hconstruction
  shape_eq := hshape
  slots_eq := hslots
  exists_line hgiven := by
    obtain ⟨pairs, hpairs, rfl⟩ := h.of_yields hgiven
    have htexts := accepts_of_gives hpairs
    have hworded : IsWorded (callWords function args) _ := isWorded_call htexts
    have henclosed := isEnclosed_call h.closed h.head htexts
    obtain ⟨c, hmatch, hread⟩ := h.matchIn_call hpairs
    refine ⟨_, hworded.isLine h.isLine, henclosed.trimmed,
      ⟨henclosed.ignores_eq, c, hworded.firstMatch_eq hform hi habsent hmatch, hread⟩, ?_⟩
    intro p hfields
    have hnodup : ((pairs ++ extra).map Prod.fst).Nodup := by
      rw [List.map_append, map_fst_of_gives hpairs]
      exact h.nodup
    have hfind : ∀ e ∈ pairs ++ extra, p.fields.find? e.1 = some e.2 := by
      rintro ⟨name, v⟩ he
      apply hfields (name, v)
      exact OrderedMap.find?_eq_some_iff.1 (OrderedMap.find?_insertMany_of_mem hnodup he)
    obtain ⟨hpairs', hextra⟩ := List.forall_mem_append.1 hfind
    rw [h.write_eq p hextra, writeCall_eq function hpairs hpairs']
    rfl

end IsCall

end Dialect

end ScriptBlocks
