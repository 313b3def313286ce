import ScriptBlocks.Proofs.Dialect.Conditional
import ScriptBlocks.Proofs.Reading.Assignment
import ScriptBlocks.Proofs.Reading.Depth

/-!
# Reading comes to an end

Building blocks for a line goes on to read the arguments in it, and an argument is read by building
blocks in turn. An argument is a proper part of what it is an argument of, so this comes to an end,
and never goes deeper than the line is long.

To say so, a depth is set to the reader: here it gives up where it would have to go deeper. That it
does not give up shows that reading needs no more than that depth, and that it is no limit to what
reading comes to elsewhere.

## Main definitions

* `Vocabulary.ArgumentOf` — an argument goes on from the text that it is an argument of
* `Workspace.attachArgumentWithin` — an argument is read to a depth or not at all
* `Workspace.readDocumentWithin` — so is a document

## Main statements

* `Vocabulary.wellFounded_argumentOf` — there is no endless descent into arguments
* `Workspace.attachArgumentWithin_eq` — the length of an argument is enough depth for it
* `Workspace.readDocumentWithin_eq` — the length of the longest line is enough for a document
* `Workspace.reading_ends` — all that is said about the end of reading
-/

namespace ScriptBlocks

open Dialect

/-! ### Arguments -/

namespace Vocabulary

variable {v : Vocabulary} {argument text : String}

/-- Reading the text as an expression goes on to read the argument. -/
def ArgumentOf (v : Vocabulary) (argument text : String) : Prop :=
  ∃ form c given, v.expressionFor (Expression.bare text) = some (form, c) ∧
    form.readFields c = .ok given ∧ argument ∈ form.arguments given

theorem ArgumentOf.isProperPart (hv : v.DialectOrBare) (h : v.ArgumentOf argument text) :
    Expression.IsProperPart argument text := by
  obtain ⟨form, c, given, hform, hread, hargument⟩ := h
  exact (isProperPart_of_arguments hv hform hread hargument).of_isInfix
    (Expression.bare_isInfix text)

/-- There is no endless descent into arguments. -/
theorem wellFounded_argumentOf (hv : v.DialectOrBare) : WellFounded v.ArgumentOf :=
  Subrelation.wf (fun h => (ArgumentOf.isProperPart hv h).length_lt)
    (measure String.length).wf

end Vocabulary

namespace Dialect

variable {form : Form} {c : Capture} {given : Fields} {line argument : String}

theorem withArguments_eq : forms.filter (fun f => f.construction = .withArguments) =
    [mathChange, variablesSet, controlsIf, logicCompare, mathArithmetic] :=
  rfl

/-- A form that reads arguments sets a variable, asks for a condition or is an operation. -/
theorem withArguments_cases (hform : form ∈ forms) (h : form.construction = .withArguments) :
    (∃ k : Setting, form = k.form) ∨ form = controlsIf ∨
      form = logicCompare ∨ form = mathArithmetic := by
  have hmem : form ∈ forms.filter fun f => f.construction = .withArguments :=
    List.mem_filter.2 ⟨hform, decide_eq_true h⟩
  rw [withArguments_eq] at hmem
  simp only [List.mem_cons, List.not_mem_nil, or_false] at hmem
  rcases hmem with rfl | rfl | h
  · exact .inl ⟨.change, rfl⟩
  · exact .inl ⟨.assign, rfl⟩
  · exact .inr h

theorem length_group_lt_of_setting (k : Setting) (hmatch : k.form.matchIn line = some c) :
    (c.group 2).length + 1 < line.length := by
  rw [← String.ofList_toList (s := line)] at hmatch ⊢
  obtain ⟨before, piece, rest, groups, hline, hspans, rfl⟩ := Form.spans_of_matchIn hmatch
  obtain ⟨-, -, name, a, b, v, rfl, rfl, ⟨d, ds, rfl, -⟩, -⟩ := k.spans_pattern hspans
  obtain ⟨e, es, hmark, -⟩ := k.mark_spec
  have hgroup : (Capture.ofPieces before ((d :: ds) ++ (a ++ (k.mark ++ (b ++ v)))) rest
      [(1, d :: ds), (2, v)]).group 2 = .ofList v := rfl
  rw [hgroup, hline, hmark, String.length_ofList, String.length_ofList]
  simp only [List.length_append, List.length_cons]
  omega

theorem length_group_lt_of_controlsIf (hmatch : controlsIf.matchIn line = some c) :
    (c.group 1).length + 1 < line.length := by
  rw [← String.ofList_toList (s := line)] at hmatch ⊢
  obtain ⟨before, piece, rest, groups, hline, hspans, rfl⟩ := Form.spans_of_matchIn hmatch
  obtain ⟨a, u, rfl, rfl⟩ := spans_controlsIf_condition hspans
  have hgroup : (Capture.ofPieces before ('i' :: 'f' :: (a ++ (u ++ [':']))) rest
      [(1, u)]).group 1 = .ofList u := rfl
  rw [hgroup, hline, String.length_ofList, String.length_ofList]
  simp only [List.length_append, List.length_cons]
  omega

theorem length_trimmed_le (text : String) : (trimmed text).length ≤ text.length := by
  rw [trimmed, String.length_ofList, ← String.length_toList]
  exact Text.length_trim_le _

/-- The arguments in a line leave room for what makes the line a statement or an operation. -/
theorem length_lt_of_arguments (hform : form ∈ forms)
    (hconstruction : form.construction = .withArguments) (hmatch : form.matchIn line = some c)
    (hread : form.readFields c = .ok given)
    (hargument : argument ∈
      (Workspace.takeArguments (form.template.valueSlots.map Prod.fst) given).1.map Prod.snd) :
    argument.length < line.length ∧ 1 < line.length := by
  rw [Form.readFields_eq_ok_iff] at hread
  rcases withArguments_cases hform hconstruction with ⟨k, rfl⟩ | rfl | hoperation
  · have hgiven : given = fields [("VAR", .string (c.group 1)),
        (k.slot, .string (trimmed (c.group 2)))] := by
      cases k with
      | assign => exact (Except.ok.inj hread).symm
      | change => exact (Except.ok.inj hread).symm
    rw [hgiven, k.takeArguments_form, List.map_singleton, List.mem_singleton] at hargument
    have hgroup := length_group_lt_of_setting k hmatch
    have hle : argument.length ≤ (c.group 2).length := hargument ▸ length_trimmed_le (c.group 2)
    omega
  · have hgroup := length_group_lt_of_controlsIf hmatch
    have hle : argument.length ≤ (c.group 1).length := by
      have hgiven : (if trimmed (c.group 1) = "" then ∅
          else fields [("IF0", .string (trimmed (c.group 1)))]) = given := Except.ok.inj hread
      split at hgiven
      · subst hgiven
        exact absurd hargument List.not_mem_nil
      · subst hgiven
        obtain rfl : argument = trimmed (c.group 1) := List.mem_singleton.1 hargument
        exact length_trimmed_le (c.group 1)
    omega
  · obtain ⟨a, op, b, rfl, ha, hb⟩ := hasOperands_of_read hoperation hread
    have hslots : form.template.valueSlots.map Prod.fst = ["A", "B"] := by
      rcases hoperation with rfl | rfl
      · rfl
      · rfl
    have htext : c.text.length ≤ line.length := by
      rw [← String.ofList_toList (s := line)] at hmatch ⊢
      obtain ⟨before, piece, rest, groups, hline, -, rfl⟩ := Form.spans_of_matchIn hmatch
      rw [hline, Capture.ofPieces, String.length_ofList, String.length_ofList, List.length_append,
        List.length_append]
      omega
    have hpart : Expression.IsProperPart argument c.text := by
      rw [hslots, Workspace.takeArguments_operands, List.map_cons, List.map_singleton] at hargument
      rcases List.mem_pair.1 hargument with rfl | rfl
      · exact ha
      · exact hb
    have hpos := hpart.length_pos
    have hlt := hpart.length_lt
    omega

end Dialect

/-! ### Reading to a depth -/

namespace Workspace

/-- Attaches arguments one after the other up to the first error, unless one of them needs more
depth than there is. -/
def attachAllWithin (attach : Workspace → String → String → Option (Attempt Unit)) :
    List (String × String) → Workspace → Option (Attempt Unit)
  | [], w => some (.ok (), w)
  | (slot, text) :: arguments, w =>
    match attach w slot text with
    | none => none
    | some (.ok (), w) => attachAllWithin attach arguments w
    | some (.error e, w) => some (.error e, w)

/-- Builds the blocks for the field values of a form, with arguments that `attach` may give up. -/
def constructWithin (v : Vocabulary)
    (attach : Workspace → BlockId → String → String → Option (Attempt Unit)) (w : Workspace)
    (form : Form) (fields : Fields) : Option (Attempt BlockId) :=
  if form.construction = .withArguments then
    let (arguments, fields) := takeArguments (form.template.valueSlots.map Prod.fst) fields
    match w.create v form.name fields with
    | .error e => some (.error e, w)
    | .ok (id, w) =>
      (attachAllWithin (attach · id) arguments w).map fun
        | (.ok (), w) => (.ok id, w)
        | (.error e, w) => (.error e, w.discard id)
  else some (construct v (fun w _ _ _ => (.ok (), w)) w form fields)

/-- Reads a text as an expression for a slot, or gives up where arguments are nested deeper than the
limit. The text itself is one level. -/
def attachArgumentWithin (v : Vocabulary) :
    Nat → Workspace → BlockId → String → String → Option (Attempt Unit)
  | 0, _, _, _, _ => none
  | limit + 1, w, parent, slot, text =>
    let text := Expression.bare text
    if text = "" then some (.ok (), w)
    else match v.expressionFor text with
      | none => some (.ok (), w)
      | some (form, c) =>
        match form.readFields c with
        | .error e => some (.error e, w)
        | .ok fields => (constructWithin v (attachArgumentWithin v limit) w form fields).map
            (plugBuilt parent slot)

/-- Builds the blocks for a match of a form in a line. The line is a level above its arguments. -/
def buildWithin (v : Vocabulary) : Nat → Workspace → Form → Capture → Option (Attempt BlockId)
  | 0, _, _, _ => none
  | limit + 1, w, form, c =>
    match form.readFields c with
    | .error e => some (.error e, w)
    | .ok fields => constructWithin v (attachArgumentWithin v limit) w form fields

/-- Reads one line. -/
def readLineWithin (o : ReadingOptions) (v : Vocabulary) (limit : Nat) (w : Workspace)
    (line : String) : Option (LineResult × Workspace) :=
  let line := String.ofList (Text.trim line.toList)
  if o.ignores line then some (.ignored, w)
  else match v.firstMatch line with
    | none => some (.unmatched, w)
    | some (form, c) =>
      (buildWithin v limit w form c).map fun
        | (.ok id, w) => (.built id, w)
        | (.error e, w) => (.failed form.name e, w)

/-- Reads lines one after the other. -/
def readLinesWithin (o : ReadingOptions) (v : Vocabulary) (limit : Nat) :
    List String → Workspace → Option (List LineResult × Workspace)
  | [], w => some ([], w)
  | line :: lines, w => do
    let (result, w) ← readLineWithin o v limit w line
    let (results, w) ← readLinesWithin o v limit lines w
    some (result :: results, w)

/-- Reads a document, or gives up where a line needs more depth than the limit. -/
def readDocumentWithin (o : ReadingOptions) (v : Vocabulary) (limit : Nat) (w : Workspace)
    (text : String) : Option (Outcome × Workspace) :=
  let lines := (Text.documentLines text.toList).map String.ofList
  (readLinesWithin o v limit lines w).map fun (results, w) =>
    let (unlinked, w) := linkAll (Outcome.ofResults results 0).blocks w
    (.ofResults results unlinked, w)

/-! ### Enough depth -/

variable {v : Vocabulary} {form : Form} {given : Fields} {c : Capture} {o : ReadingOptions}

theorem attachAllWithin_eq {within : Workspace → String → String → Option (Attempt Unit)}
    {attach : Workspace → String → String → Attempt Unit} {arguments : List (String × String)}
    (h : ∀ argument ∈ arguments, ∀ w,
      within w argument.1 argument.2 = some (attach w argument.1 argument.2)) (w : Workspace) :
    attachAllWithin within arguments w = some (attachAll attach arguments w) := by
  induction arguments generalizing w with
  | nil => rfl
  | cons argument arguments ih =>
    obtain ⟨slot, text⟩ := argument
    obtain ⟨hfirst, hrest⟩ := List.forall_mem_cons.1 h
    rw [attachAllWithin, attachAll, hfirst w]
    rcases attach w slot text with ⟨_ | _, w'⟩
    · rfl
    · exact ih hrest w'

/-- Building does not give up where none of the arguments does. -/
theorem constructWithin_eq
    {within : Workspace → BlockId → String → String → Option (Attempt Unit)}
    {attach : Workspace → BlockId → String → String → Attempt Unit}
    (h : ∀ argument ∈ form.arguments given, ∀ w p slot,
      within w p slot argument = some (attach w p slot argument)) (w : Workspace) :
    constructWithin v within w form given = some (construct v attach w form given) := by
  rw [constructWithin]
  split
  · next hconstruction =>
    rw [Form.arguments, if_pos hconstruction] at h
    have hall (w : Workspace) (p : BlockId) :
        attachAllWithin (within · p)
            (takeArguments (form.template.valueSlots.map Prod.fst) given).1 w =
          some (attachAll (attach · p)
            (takeArguments (form.template.valueSlots.map Prod.fst) given).1 w) :=
      attachAllWithin_eq (fun argument hargument w =>
        h argument.2 (List.mem_map_of_mem hargument) w p argument.1) w
    rw [construct, hconstruction]
    dsimp only
    cases w.create v form.name
      (takeArguments (form.template.valueSlots.map Prod.fst) given).2 with
    | error e => rfl
    | ok r =>
      obtain ⟨id, w₁⟩ := r
      dsimp only
      rw [hall]
      rcases attachAll (attach · id) (takeArguments (form.template.valueSlots.map Prod.fst) given).1
        w₁ with ⟨_ | _, w₂⟩
      · rfl
      · rfl
  · next hconstruction =>
    exact congrArg some (construct_congr fun h => absurd h hconstruction)

theorem attachArgumentWithin_succ (v : Vocabulary) (limit : Nat) (w : Workspace) (p : BlockId)
    (slot text : String) :
    attachArgumentWithin v (limit + 1) w p slot text =
      match v.argument? text with
      | none => some (.ok (), w)
      | some (.error e) => some (.error e, w)
      | some (.ok (form, given)) =>
        (constructWithin v (attachArgumentWithin v limit) w form given).map (plugBuilt p slot) := by
  rw [attachArgumentWithin, Vocabulary.argument?]
  split
  · rfl
  · cases v.expressionFor (Expression.bare text) with
    | none => rfl
    | some found =>
      obtain ⟨form, c⟩ := found
      dsimp only [Option.map_some]
      cases form.readFields c with
      | error e => rfl
      | ok given => rfl

/-- The length of an argument is enough depth for it, and one level is enough for an empty one. -/
theorem attachArgumentWithin_eq (hv : v.DialectOrBare) {text : String} {limit depth : Nat}
    (hpos : 0 < limit) (hlimit : text.length ≤ limit) (hdepth : text.length ≤ depth)
    (w : Workspace) (p : BlockId) (slot : String) :
    attachArgumentWithin v limit w p slot text = some (attachArgument v depth w p slot text) := by
  induction limit generalizing text depth w p slot with
  | zero => exact absurd hpos (Nat.lt_irrefl 0)
  | succ limit ih =>
    rw [attachArgumentWithin_succ]
    by_cases hempty : Expression.bare text = ""
    · rw [Vocabulary.argument?_of_bare_eq_empty hempty, attachArgument_of_bare_eq_empty hempty]
    have hle := Expression.length_bare_le text
    cases depth with
    | zero =>
      exact absurd (String.length_eq_zero_iff.1 (Nat.le_zero.1 (hle.trans hdepth))) hempty
    | succ depth =>
      rw [attachArgument_succ]
      rcases hargument : v.argument? text with _ | e | ⟨form, given⟩
      · rfl
      · rfl
      · obtain ⟨-, c, hform, hread⟩ := Vocabulary.argument?_eq_ok_iff.1 hargument
        have hconstruct : constructWithin v (attachArgumentWithin v limit) w form given =
            some (construct v (attachArgument v depth) w form given) := by
          refine constructWithin_eq (fun argument hargument w p slot => ?_) w
          have hpart := Vocabulary.isProperPart_of_arguments hv hform hread hargument
          have hlt := hpart.length_lt
          have hpos := hpart.length_pos
          exact ih (by omega) (by omega) (by omega) w p slot
        dsimp only
        rw [hconstruct, Option.map_some]

/-- The length of a line is enough depth for it. -/
theorem buildWithin_eq (hv : v.DialectOrBare) {line : String} {limit : Nat}
    (hform : form ∈ v.forms) (hmatch : form.matchIn line = some c) (hne : line ≠ "")
    (hlimit : line.length ≤ limit) (w : Workspace) :
    buildWithin v limit w form c = some (build v w line form c) := by
  cases limit with
  | zero => exact absurd (String.length_eq_zero_iff.1 (Nat.le_zero.1 hlimit)) hne
  | succ limit =>
    rw [buildWithin, build]
    cases hread : form.readFields c with
    | error e => rfl
    | ok given =>
      refine constructWithin_eq (fun argument hargument w p slot => ?_) w
      obtain ⟨hdialect, hconstruction, slot', hmem⟩ :=
        Vocabulary.mem_forms_of_arguments hv hform hargument
      obtain ⟨hlt, hline⟩ := length_lt_of_arguments hdialect hconstruction hmatch hread
        (List.mem_map_of_mem hmem)
      exact attachArgumentWithin_eq hv (by omega) (by omega) hlt.le w p slot

theorem readLineWithin_eq (hv : v.DialectOrBare) {line : String} {limit : Nat}
    (hlimit : line.length ≤ limit) (w : Workspace) :
    readLineWithin o v limit w line = some (w.readLine o v line) := by
  have htrim : (String.ofList (Text.trim line.toList)).length ≤ line.length :=
    length_trimmed_le line
  rw [readLineWithin, readLine]
  generalize String.ofList (Text.trim line.toList) = line' at htrim ⊢
  split
  · rfl
  · next hkept =>
    have hne : line' ≠ "" := by
      rintro rfl
      exact hkept rfl
    cases hfirst : v.firstMatch line' with
    | none => rfl
    | some found =>
      obtain ⟨form, c⟩ := found
      obtain ⟨hform, hmatch⟩ := Vocabulary.of_firstMatch hfirst
      dsimp only
      rw [buildWithin_eq hv hform hmatch hne (htrim.trans hlimit)]
      rcases build v w line' form c with ⟨_ | id, w'⟩
      · rfl
      · rfl

theorem readLinesWithin_eq (hv : v.DialectOrBare) {lines : List String} {limit : Nat}
    (hlimit : ∀ line ∈ lines, line.length ≤ limit) (w : Workspace) :
    readLinesWithin o v limit lines w = some (readLines o v lines w) := by
  induction lines generalizing w with
  | nil => rfl
  | cons line lines ih =>
    obtain ⟨hline, hlines⟩ := List.forall_mem_cons.1 hlimit
    rw [readLinesWithin, readLineWithin_eq hv hline, readLines]
    simp only [Option.bind_eq_bind, Option.bind_some, ih hlines]

/-- The length of the longest line is enough depth for a document. -/
theorem readDocumentWithin_eq (hv : v.DialectOrBare) {text : String} {limit : Nat}
    (hlimit : ∀ line ∈ Text.documentLines text.toList, line.length ≤ limit) (w : Workspace) :
    readDocumentWithin o v limit w text = some (w.readDocument o v text) := by
  have hlines : ∀ line ∈ (Text.documentLines text.toList).map String.ofList,
      line.length ≤ limit := by
    intro line hline
    obtain ⟨l, hl, rfl⟩ := List.mem_map.1 hline
    rw [String.length_ofList]
    exact hlimit l hl
  rw [readDocumentWithin, readLinesWithin_eq hv hlines, readDocument]
  rfl

/-- Operands are proper parts of what they are operands of, and what is left of a text without
blanks or parentheses around it is a part of it. So where only forms of the dialect read arguments
there is no endless descent into them: the length of an argument is enough depth for it, and the
length of the longest line for a document. -/
theorem reading_ends :
    (∀ form c given, form = mathArithmetic ∨ form = logicCompare → form.read c = .ok given →
      HasOperands c.text given) ∧
    (∀ s : List Char, Expression.stripChars s <:+: s ∧ Text.trim s <:+: s) ∧
    ∀ v : Vocabulary, v.DialectOrBare →
      WellFounded v.ArgumentOf ∧
      (∀ text limit w p slot, 0 < limit → text.length ≤ limit →
        attachArgumentWithin v limit w p slot text =
          some (attachArgument v text.length w p slot text)) ∧
      ∀ o w text limit, (∀ line ∈ Text.documentLines text.toList, line.length ≤ limit) →
        readDocumentWithin o v limit w text = some (w.readDocument o v text) := by
  refine ⟨fun form c given hform hread => hasOperands_of_read hform.symm hread, fun s => ?_,
    fun v hv => ?_⟩
  · exact ⟨Expression.stripWithin_isInfix _ s, Text.trim_isInfix s⟩
  · refine ⟨Vocabulary.wellFounded_argumentOf hv, fun text limit w p slot hpos hlimit => ?_,
      fun o w text limit hlimit => readDocumentWithin_eq hv hlimit w⟩
    exact attachArgumentWithin_eq hv hpos hlimit (Nat.le_refl _) w p slot

/-- A sum in parentheses that is an operand of a product, which is assigned to a name: with three
levels the reader gives up at the operands of the sum, and with as many as the line is long it does
not. -/
theorem reading_ends_of_nested :
    let v : Vocabulary := ⟨forms ++ [{ plotLed with name := "light_up" }], by decide⟩
    let c : Capture := ⟨"", "((a + 1)) * -2", "", []⟩
    let given := fields
      [("A", .string "((a + 1))"), ("OP", .string "MULTIPLY"), ("B", .string "-2")]
    let text := "y = ((a + 1)) * -2\n# note"
    mathArithmetic.read c = .ok given ∧ HasOperands c.text given ∧
    v.DialectOrBare ∧ WellFounded v.ArgumentOf ∧
    attachArgumentWithin v 14 ∅ 1 "VALUE" c.text =
      some (attachArgument v c.text.length ∅ 1 "VALUE" c.text) ∧
    (∀ line ∈ Text.documentLines text.toList, line.length ≤ 18) ∧
    readDocumentWithin {} v 3 ∅ text = none ∧
    readDocumentWithin {} v 18 ∅ text = some ((∅ : Workspace).readDocument {} v text) := by
  intro v c given text
  have hread : mathArithmetic.read c = .ok given := by decide +kernel
  have hv : v.DialectOrBare := by
    intro form hform
    rcases List.mem_append.1 hform with hform | hform
    · exact .inl hform
    · rw [List.mem_singleton.1 hform]
      exact .inr rfl
  have hlines : ∀ line ∈ Text.documentLines text.toList, line.length ≤ 18 := by decide
  obtain ⟨hoperands, -, hends⟩ := reading_ends
  obtain ⟨hwell, hargument, hdocument⟩ := hends v hv
  exact ⟨hread, hoperands _ _ _ (.inl rfl) hread, hv, hwell,
    hargument _ _ _ _ _ (by decide) (by decide), hlines, by decide +kernel,
    hdocument _ _ _ _ hlines⟩

end Workspace

end ScriptBlocks
