import ScriptBlocks.Proofs.Expression.Split
import ScriptBlocks.Proofs.Reading.Expression

/-!
# The depth of reading

The arguments of an expression are shorter than its text. So a depth that covers the text of an
argument lets the reader go down as far as there is anything to read, and what the argument becomes
depends neither on the line that it was cut out of nor on what it is wrapped in.

## Main definitions

* `Expression.IsProperPart` — a part of a text that is neither empty nor all of it
* `Form.arguments` — the texts that building blocks goes on to read
* `Vocabulary.DialectOrBare` — forms of the dialect, and forms that read nothing
* `Vocabulary.Shortens` — the arguments of an expression are shorter than its text

## Main statements

* `Dialect.hasOperands_of_read` — operands are proper parts of the text of an operation
* `Vocabulary.isProperPart_of_arguments` — so are the arguments of any expression
* `Dialect.shortens_vocabulary` — the forms of the dialect shorten
* `Workspace.attachArgument_congr` — arguments that are the same but for wrapping parentheses are
  read the same
-/

namespace ScriptBlocks

open Dialect

/-! ### Parts of a text -/

theorem Text.trim_isInfix (s : List Char) : trim s <:+: s := by
  obtain ⟨-, a, b, hs, -⟩ := exists_trim s
  exact ⟨a, b, by rw [List.append_assoc, ← hs]⟩

namespace Expression

variable {s : List Char} {a b op text t : String} {ops : List String} {rightmost : Bool}

theorem infix_of_unwrap? {inner : List Char} (h : unwrap? s = some inner) : inner <:+: s := by
  unfold unwrap? at h
  split at h
  · next rest =>
    split at h
    · rw [← Option.some.inj h]
      exact (List.dropLast_prefix rest).isInfix.trans (List.suffix_cons _ rest).isInfix
    · exact nomatch h
  · exact nomatch h

theorem stripWithin_isInfix (fuel : Nat) (s : List Char) : stripWithin fuel s <:+: s := by
  induction fuel generalizing s with
  | zero => exact List.infix_rfl
  | succ fuel ih =>
    rw [stripWithin]
    cases hunwrap : unwrap? s with
    | none => exact List.infix_rfl
    | some inner => exact (ih _).trans ((Text.trim_isInfix inner).trans (infix_of_unwrap? hunwrap))

theorem bare_isInfix (text : String) : (bare text).toList <:+: text.toList := by
  rw [bare, String.toList_ofList]
  exact (stripWithin_isInfix _ _).trans (Text.trim_isInfix _)

theorem length_bare_le (text : String) : (bare text).length ≤ text.length := by
  rw [← String.length_toList, ← String.length_toList]
  exact (bare_isInfix text).length_le

/-- A part of a text that is neither empty nor all of it. It is shorter in characters and in
octets. -/
structure IsProperPart (a text : String) : Prop where
  ne_empty : a ≠ ""
  isInfix : a.toList <:+: text.toList
  length_lt : a.length < text.length
  size_lt : a.utf8ByteSize < text.utf8ByteSize

theorem exists_of_isInfix (h : a.toList <:+: text.toList) :
    ∃ before after, text = before ++ a ++ after := by
  obtain ⟨x, y, h⟩ := h
  refine ⟨.ofList x, .ofList y, String.toList_injective ?_⟩
  rw [String.toList_append, String.toList_append, String.toList_ofList, String.toList_ofList, h]

theorem IsProperPart.length_pos (h : IsProperPart a text) : 0 < a.length :=
  Nat.pos_of_ne_zero (mt String.length_eq_zero_iff.1 h.ne_empty)

theorem isProperPart_append {before after : String} (hne : a ≠ "") (h : before ≠ "" ∨ after ≠ "") :
    IsProperPart a (before ++ a ++ after) where
  ne_empty := hne
  isInfix := by
    rw [String.toList_append, String.toList_append]
    exact ⟨_, _, rfl⟩
  length_lt := by
    have hpos := h.imp (mt String.length_eq_zero_iff.1) (mt String.length_eq_zero_iff.1)
    rw [String.length_append, String.length_append]
    omega
  size_lt := by
    have hpos := h.imp (mt String.utf8ByteSize_eq_zero_iff.1) (mt String.utf8ByteSize_eq_zero_iff.1)
    rw [String.utf8ByteSize_append, String.utf8ByteSize_append]
    omega

theorem IsProperPart.of_isInfix (h : IsProperPart a t) (ht : t.toList <:+: text.toList) :
    IsProperPart a text := by
  obtain ⟨before, after, rfl⟩ := exists_of_isInfix ht
  refine ⟨h.ne_empty, h.isInfix.trans ht, ?_, ?_⟩
  · have hlt := h.length_lt
    rw [String.length_append, String.length_append]
    omega
  · have hlt := h.size_lt
    rw [String.utf8ByteSize_append, String.utf8ByteSize_append]
    omega

/-- Neither operand is all of the text, since neither is empty. -/
theorem isProperPart_of_splitBinary (h : splitBinary text ops rightmost = some (a, op, b)) :
    IsProperPart a text ∧ IsProperPart b text := by
  obtain ⟨⟨lhs, op', rhs⟩, hsplit, heq⟩ := Option.map_eq_some_iff.1 h
  cases heq
  obtain ⟨n, hat⟩ := splitsAt_of_splitChars hsplit
  obtain ⟨x, y, z, u, htext, -⟩ := hat.text
  have hne {s : List Char} (hs : s ≠ []) : String.ofList s ≠ "" := by
    rwa [Ne, String.ofList_eq_empty_iff]
  have hlhs : text =
      .ofList x ++ .ofList lhs ++ .ofList (y ++ (op.toList ++ (z ++ (rhs ++ u)))) := by
    rw [← String.ofList_append, ← String.ofList_append, ← String.ofList_toList (s := text), htext]
    simp only [List.append_assoc]
  have hrhs : text = .ofList (x ++ (lhs ++ y) ++ (op.toList ++ z)) ++ .ofList rhs ++ .ofList u := by
    rw [← String.ofList_append, ← String.ofList_append, ← String.ofList_toList (s := text), htext]
    simp only [List.append_assoc]
  constructor
  · rw [hlhs]
    refine isProperPart_append (hne hat.ne_nil.1) (.inr (hne ?_))
    simp only [Ne, List.append_eq_nil_iff, hat.ne_nil.2, false_and, and_false, not_false_eq_true]
  · rw [hrhs]
    refine isProperPart_append (hne hat.ne_nil.2) (.inl (hne ?_))
    simp only [Ne, List.append_eq_nil_iff, hat.ne_nil.1, false_and, and_false, not_false_eq_true]

end Expression

namespace Dialect

open Expression

variable {c : Capture} {given : Fields} {form : Form}

/-- Two operands that are proper parts of a text, with an operator between them. -/
def HasOperands (text : String) (given : Fields) : Prop :=
  ∃ a op b, given = fields [("A", .string a), ("OP", .string op), ("B", .string b)] ∧
    IsProperPart a text ∧ IsProperPart b text

theorem hasOperands_of_splitBinary {a b symbol op : String} {ops : List String} {rightmost : Bool}
    (h : splitBinary (bare c.text) ops rightmost = some (a, symbol, b)) :
    HasOperands c.text (fields [("A", .string a), ("OP", .string op), ("B", .string b)]) := by
  obtain ⟨ha, hb⟩ := isProperPart_of_splitBinary h
  have hbare := bare_isInfix c.text
  exact ⟨a, op, b, rfl, ha.of_isInfix hbare, hb.of_isInfix hbare⟩

theorem hasOperands_of_readArithmetic (h : readArithmetic c = .ok given) :
    HasOperands c.text given := by
  simp only [readArithmetic] at h
  cases hsplit : splitArithmetic (bare c.text) with
  | none =>
    rw [hsplit] at h
    cases h
  | some r =>
    obtain ⟨a, op, b⟩ := r
    simp only [hsplit, Except.ok.injEq] at h
    subst h
    simp only [splitArithmetic, Option.orElse_eq_orElse, Option.orElse_eq_or] at hsplit
    rw [Option.or_eq_some_iff, Option.or_eq_some_iff] at hsplit
    rcases hsplit with hsplit | ⟨-, hsplit | ⟨-, hsplit⟩⟩
    · exact hasOperands_of_splitBinary hsplit
    · exact hasOperands_of_splitBinary hsplit
    · exact hasOperands_of_splitBinary hsplit

theorem hasOperands_of_readComparison (h : readComparison c = .ok given) :
    HasOperands c.text given := by
  simp only [readComparison] at h
  split at h
  · cases h
  · cases hsplit : splitBinary (bare c.text) comparisonSymbols false with
    | none =>
      rw [hsplit] at h
      cases h
    | some r =>
      obtain ⟨a, op, b⟩ := r
      simp only [hsplit, Except.ok.injEq] at h
      subst h
      exact hasOperands_of_splitBinary hsplit

/-- The operands of an operation are proper parts of its text. -/
theorem hasOperands_of_read (hform : form = logicCompare ∨ form = mathArithmetic)
    (h : form.read c = .ok given) : HasOperands c.text given := by
  rcases hform with rfl | rfl
  · rw [read_logicCompare] at h
    exact hasOperands_of_readComparison h
  · rw [read_mathArithmetic] at h
    exact hasOperands_of_readArithmetic h

end Dialect

/-! ### Forms -/

/-- The texts that building blocks of a form goes on to read. -/
def Form.arguments (form : Form) (given : Fields) : List String :=
  if form.construction = .withArguments then
    (Workspace.takeArguments (form.template.valueSlots.map Prod.fst) given).1.map Prod.snd
  else []

/-- Each form is one of the dialect or is built without reading anything. -/
def Vocabulary.DialectOrBare (v : Vocabulary) : Prop :=
  ∀ form ∈ v.forms, form ∈ Dialect.forms ∨ form.construction = .bare

/-- The arguments of an expression are shorter than its text. -/
def Vocabulary.Shortens (v : Vocabulary) : Prop :=
  ∀ ⦃text form c given⦄, v.expressionFor text = some (form, c) → form.readFields c = .ok given →
    form.construction = .withArguments →
      ∀ argument ∈ (Workspace.takeArguments (form.template.valueSlots.map Prod.fst) given).1,
        argument.2.length < text.length

theorem Form.readFields_eq_ok_iff {form : Form} {c : Capture} {given : Fields} :
    form.readFields c = .ok given ↔ form.read c = .ok given := by
  rw [readFields]
  cases form.read c with
  | error e =>
    constructor
    · intro h
      cases h
    · intro h
      cases h
  | ok given' =>
    exact ⟨fun h => congrArg _ (Except.ok.inj h), fun h => congrArg _ (Except.ok.inj h)⟩

theorem Vocabulary.of_expressionFor {v : Vocabulary} {text : String} {form : Form} {c : Capture}
    (h : v.expressionFor text = some (form, c)) :
    form ∈ v.forms.filter (fun f => f.role = .expression) ∧ form.matchWhole text = some c := by
  rw [expressionFor_eq] at h
  obtain ⟨f, hf, hmatch⟩ := List.exists_of_findSome?_eq_some h
  obtain ⟨c', hc, heq⟩ := Option.map_eq_some_iff.1 hmatch
  obtain ⟨rfl, rfl⟩ := Prod.mk.inj heq
  exact ⟨hf, hc⟩

namespace Dialect

/-- Only operations have arguments. -/
theorem exists_operands {form : Form} {c : Capture} {given : Fields}
    (hform : form ∈ vocabulary.forms.filter (fun f => f.role = .expression))
    (hconstruction : form.construction = .withArguments) (h : form.readFields c = .ok given) :
    form.template.valueSlots.map Prod.fst = ["A", "B"] ∧ HasOperands c.text given := by
  rw [Form.readFields_eq_ok_iff] at h
  rcases operation_cases hform with hoperation | hother
  · refine ⟨?_, hasOperands_of_read hoperation h⟩
    rcases hoperation with rfl | rfl
    · rfl
    · rfl
  · have hbare : ∀ f ∈ calls ++ [text, logicBoolean, mathNumber, variablesGet],
        f.construction ≠ .withArguments := by
      decide
    exact absurd hconstruction (hbare form hother)

end Dialect

namespace Vocabulary

variable {v : Vocabulary} {text argument : String} {form : Form} {c : Capture} {given : Fields}

theorem mem_forms_of_arguments (hv : v.DialectOrBare) (hmem : form ∈ v.forms)
    (hargument : argument ∈ form.arguments given) :
    form ∈ Dialect.forms ∧ form.construction = .withArguments ∧
      ∃ slot, (slot, argument) ∈
        (Workspace.takeArguments (form.template.valueSlots.map Prod.fst) given).1 := by
  rw [Form.arguments] at hargument
  split at hargument
  · next hconstruction =>
    obtain ⟨⟨slot, text⟩, hmem', rfl⟩ := List.mem_map.1 hargument
    refine ⟨(hv form hmem).resolve_right fun hbare => ?_, hconstruction, slot, hmem'⟩
    exact nomatch hbare.symm.trans hconstruction
  · exact absurd hargument List.not_mem_nil

/-- The arguments of an expression are proper parts of its text. -/
theorem isProperPart_of_arguments (hv : v.DialectOrBare)
    (hform : v.expressionFor text = some (form, c)) (hread : form.readFields c = .ok given)
    (hargument : argument ∈ form.arguments given) : Expression.IsProperPart argument text := by
  obtain ⟨hmem, hmatch⟩ := of_expressionFor hform
  obtain ⟨hforms, hrole⟩ := List.mem_filter.1 hmem
  obtain ⟨hdialect, hconstruction, slot, hmem'⟩ := mem_forms_of_arguments hv hforms hargument
  obtain ⟨hslots, a, op, b, rfl, ha, hb⟩ :=
    exists_operands (List.mem_filter.2 ⟨hdialect, hrole⟩) hconstruction hread
  have htext : c.text = text := by
    rw [← String.ofList_toList (s := text)] at hmatch ⊢
    obtain ⟨groups, -, rfl⟩ := Form.spans_of_matchWhole hmatch
    rfl
  rw [htext] at ha hb
  rw [hslots, Workspace.takeArguments_operands] at hmem'
  simp only [List.mem_cons, Prod.mk.injEq, List.not_mem_nil, or_false] at hmem'
  rcases hmem' with ⟨-, rfl⟩ | ⟨-, rfl⟩
  · exact ha
  · exact hb

theorem shortens_of_dialectOrBare (hv : v.DialectOrBare) : v.Shortens := by
  intro text form c given hform hread hconstruction argument hargument
  refine (isProperPart_of_arguments hv hform hread ?_).length_lt
  rw [Form.arguments, if_pos hconstruction]
  exact List.mem_map_of_mem hargument

end Vocabulary

theorem Dialect.shortens_vocabulary : vocabulary.Shortens :=
  Vocabulary.shortens_of_dialectOrBare fun _ hform => .inl hform

/-! ### Arguments -/

namespace Workspace

variable {v : Vocabulary} {w : Workspace} {p : BlockId} {form : Form}

theorem attachAll_congr {attach attach' : Workspace → String → String → Attempt Unit}
    {arguments : List (String × String)}
    (h : ∀ argument ∈ arguments, ∀ w, attach w argument.1 argument.2 =
      attach' w argument.1 argument.2) (w : Workspace) :
    attachAll attach arguments w = attachAll attach' arguments w := by
  induction arguments generalizing w with
  | nil => rfl
  | cons argument arguments ih =>
    obtain ⟨slot, text⟩ := argument
    obtain ⟨hfirst, hrest⟩ := List.forall_mem_cons.1 h
    rw [attachAll, attachAll, hfirst w]
    rcases attach' w slot text with ⟨_ | _, w₁⟩
    · rfl
    · exact ih hrest w₁

/-- Two ways of attaching arguments build the same where they agree on the arguments. -/
theorem construct_congr
    {attach attach' : Workspace → BlockId → String → String → Attempt Unit} {given : Fields}
    (h : form.construction = .withArguments →
      ∀ argument ∈ (takeArguments (form.template.valueSlots.map Prod.fst) given).1, ∀ w p,
        attach w p argument.1 argument.2 = attach' w p argument.1 argument.2) :
    construct v attach w form given = construct v attach' w form given := by
  have hfill (w : Workspace) (id : BlockId) :
      fillSlots v attach w id form given = fillSlots v attach' w id form given := by
    rw [fillSlots, fillSlots]
    cases hconstruction : form.construction with
    | bare | literal => rfl
    | withArguments =>
      exact attachAll_congr (fun argument hargument w => h hconstruction argument hargument w id) w
  cases hcreate : w.create v form.name (form.keptFields given) with
  | error e => rw [construct_of_create_error hcreate, construct_of_create_error hcreate]
  | ok r => rw [construct_of_create_ok hcreate, construct_of_create_ok hcreate, hfill]

theorem attachArgument_of_bare_eq_empty {text : String} (h : Expression.bare text = "")
    (depth : Nat) (slot : String) :
    attachArgument v depth w p slot text = (.ok (), w) := by
  cases depth with
  | zero => rfl
  | succ depth => rw [attachArgument_succ, Vocabulary.argument?_of_bare_eq_empty h]

/-- Where the depth covers the text of an argument, it makes no difference how great it is, nor what
is wrapped around the argument. -/
theorem attachArgument_congr (hv : v.Shortens) {text text' : String} {depth depth' : Nat}
    (hbare : Expression.bare text = Expression.bare text') (h : text.length ≤ depth)
    (h' : text'.length ≤ depth') (slot : String) :
    attachArgument v depth w p slot text = attachArgument v depth' w p slot text' := by
  induction depth generalizing text text' depth' w p slot with
  | zero =>
    have hempty : Expression.bare text = "" := by
      rw [String.length_eq_zero_iff.1 (Nat.le_zero.1 h)]
      rfl
    rw [attachArgument_of_bare_eq_empty hempty, attachArgument_of_bare_eq_empty (hbare ▸ hempty)]
  | succ depth ih =>
    by_cases hempty : Expression.bare text = ""
    · rw [attachArgument_of_bare_eq_empty hempty, attachArgument_of_bare_eq_empty (hbare ▸ hempty)]
    have hlength := (Expression.length_bare_le text).trans h
    have hlength' := (Expression.length_bare_le text').trans h'
    rw [← hbare] at hlength'
    cases depth' with
    | zero => exact absurd (String.length_eq_zero_iff.1 (Nat.le_zero.1 hlength')) hempty
    | succ depth' =>
      rw [attachArgument_succ, attachArgument_succ, ← Vocabulary.argument?_congr hbare]
      rcases hargument : v.argument? text with _ | e | ⟨form, given⟩
      · rfl
      · rfl
      · obtain ⟨-, c, hform, hread⟩ := Vocabulary.argument?_eq_ok_iff.1 hargument
        have hconstruct : construct v (attachArgument v depth) w form given =
            construct v (attachArgument v depth') w form given := by
          refine construct_congr fun hconstruction argument hargument w p => ?_
          have hlt := hv hform hread hconstruction argument hargument
          exact ih rfl (Nat.le_of_lt_succ (hlt.trans_le hlength))
            (Nat.le_of_lt_succ (hlt.trans_le hlength')) _
        dsimp only
        rw [hconstruct]

end Workspace

end ScriptBlocks
