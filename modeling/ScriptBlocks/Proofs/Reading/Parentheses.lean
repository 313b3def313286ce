import ScriptBlocks.Proofs.Expression.Nesting
import ScriptBlocks.Proofs.Pattern.Border
import ScriptBlocks.Proofs.Reading.Argument

/-!
# Parentheses around an argument

Parentheses around the value of a line are dropped where all parentheses in the value close one
another, those in string literals included: then the line is read as if they were not there. The
scan for operators does not count the parentheses in literals. So where the value is nested outside
its literals, but its parentheses do not all close one another, the ones around it are kept, nothing
in them is found, and no form reads the whole.

## Main statements

* `Workspace.readDocument_parenthesized` — what parentheses around a value do
* `Workspace.parenthesized_text_lost` — a parenthesis in a string literal
-/

namespace ScriptBlocks

open Dialect Expression

variable {name t : List Char} {depth : Nat}

/-! ### Parentheses that are kept -/

namespace Dialect

/-- No expression but an operation starts with a parenthesis. -/
theorem eq_operation_of_paren {form : Form} {c : Capture} {u : List Char}
    (h : vocabulary.expressionFor (.ofList ('(' :: u)) = some (form, c)) :
    (form = logicCompare ∨ form = mathArithmetic) ∧ c.text = .ofList ('(' :: u) := by
  obtain ⟨hform, hmatch⟩ := Vocabulary.of_expressionFor h
  obtain ⟨groups, hspans, rfl⟩ := Form.spans_of_matchWhole hmatch
  have hstart : form.pattern.canStart '(' = true := hspans.canStart rfl
  have hother : ∀ f ∈ calls ++ [text, logicBoolean, mathNumber, variablesGet],
      f.pattern.canStart '(' = false := by
    decide
  refine ⟨(operation_cases hform).resolve_right fun hmem => ?_, rfl⟩
  exact Bool.false_ne_true ((hother form hmem).symm.trans hstart)

/-- An operation has no operands if no operator in it counts. -/
theorem readFields_eq_error {form : Form} {c : Capture}
    (hform : form = logicCompare ∨ form = mathArithmetic) {s : List Char}
    (hbare : bare c.text = .ofList s) (hs : topLevelOperators s = []) :
    ∃ e, form.readFields c = .error e := by
  have hsplit (names : List String) (rightmost : Bool) :
      splitBinary (.ofList s) names rightmost = none :=
    splitBinary_eq_none rightmost hs nofun
  rcases hform with rfl | rfl
  · rw [Form.readFields, read_logicCompare, readComparison, hbare, String.toList_ofList, hs]
    simp only [List.filter_nil, List.length_nil, Nat.not_lt_zero, if_false, hsplit]
    exact ⟨_, rfl⟩
  · rw [Form.readFields, read_mathArithmetic, readArithmetic, hbare, splitArithmetic]
    simp only [hsplit]
    exact ⟨_, rfl⟩

end Dialect

namespace Workspace

variable {w : Workspace}

/-- Nothing is built from a text in parentheses that are kept. -/
theorem attachArgument_parenthesized (hcloses : closes 0 t = false)
    (hnested : Nested 0 (outside .code t)) (depth : Nat) (p : BlockId) (slot : String) :
    ∃ r, attachArgument vocabulary depth w p slot (.ofList ('(' :: (t ++ [')']))) = (r, w) := by
  cases depth with
  | zero => exact ⟨_, rfl⟩
  | succ depth =>
    have hbare := bare_parenthesized_of_not_closes hcloses
    rw [attachArgument_succ]
    rcases hargument : vocabulary.argument? (.ofList ('(' :: (t ++ [')']))) with
      _ | e | ⟨form, given⟩
    · exact ⟨_, rfl⟩
    · exact ⟨_, rfl⟩
    · -- an operation takes the text, but there is no operator outside the parentheses
      obtain ⟨-, c, hform, hread⟩ := Vocabulary.argument?_eq_ok_iff.1 hargument
      rw [hbare] at hform
      obtain ⟨hoperation, htext⟩ := eq_operation_of_paren hform
      rw [← htext] at hbare
      obtain ⟨e, he⟩ := readFields_eq_error hoperation (hbare.trans htext)
        (topLevelOperators_parenthesized hnested)
      cases he.symm.trans hread

/-! ### Lines -/

/-- A line is longer than its value, but no greater depth is needed than that of the value. -/
theorem readLine_line (k : Setting) (w : Workspace) (hname : IsIdentifier name)
    (hline : Text.IsLine t) (hblank : Text.trim t ≠ []) (hdepth : t.length ≤ depth) :
    w.readLine {} vocabulary (.ofList (k.line name t)) =
      match construct vocabulary (attachArgument vocabulary depth) w k.form (fields
        [("VAR", .string (.ofList name)), (k.slot, .string (.ofList (Text.trim t)))]) with
      | (.ok id, w') => (.built id, w')
      | (.error e, w') => (.failed k.form.name e, w') := by
  -- what is read is the trimmed line, which ends with the value
  obtain ⟨u, b, hsplit, htrim, hvalue⟩ := k.exists_trim_line hname hblank
  have hu : ∀ c ∈ u, inLine c = true := fun c hc =>
    inLine_of_isLine hline c (hsplit ▸ List.mem_append_left b hc)
  obtain ⟨c, hmatch, -, hfields⟩ := k.firstMatch_line hname hu
  have htext : String.ofList (Text.trim (String.ofList (k.line name t)).toList) =
      .ofList (k.line name u) := by
    rw [String.toList_ofList, htrim]
  have hle : (String.ofList (Text.trim u)).length ≤ u.length := by
    rw [String.length_ofList]
    exact Text.length_trim_le u
  have hle' : u.length ≤ t.length := by
    rw [hsplit, List.length_append]
    exact Nat.le_add_right _ _
  have htakes := takesOne_setting k (.ofList name) (.ofList (Text.trim u))
  have hread := (readLine_of_match (w := w) htext (Setting.ignores_line hname) hmatch hfields).1
  rw [String.length_ofList, htakes.construct_congr htakes rfl
    (hle.trans (Setting.length_lt_line k name u).le) (hle.trans (hle'.trans hdepth)), hvalue] at hread
  exact hread

/-- A line is a document. -/
theorem readDocument_line (k : Setting) (w : Workspace) (hname : IsIdentifier name)
    (hline : Text.IsLine t) : w.readDocument {} vocabulary (.ofList (k.line name t)) =
      (.ofResults [(w.readLine {} vocabulary (.ofList (k.line name t))).1] 0,
        (w.readLine {} vocabulary (.ofList (k.line name t))).2) := by
  rcases hread : w.readLine {} vocabulary (.ofList (k.line name t)) with ⟨result, w'⟩
  have hdocument := readDocument_of_line (e := []) (k.isLine_line hname hline) (.inl rfl) hread
  rwa [List.append_nil] at hdocument

/-- What is attached in vain leaves the slot of the block empty. -/
theorem construct_of_attach {form : Form} {given rest : Fields} {slot text : String}
    {check : Option Capability} {attach : Workspace → BlockId → String → String → Attempt Unit}
    (htakes : TakesOne form given slot check text rest)
    (hattach : ∀ w p, ∃ r, attach w p slot text = (r, w)) {p : BlockId} {w' : Workspace}
    (h : construct vocabulary attach w form given = (.ok p, w')) :
    w'.find? p = some (.ofTemplate p form.name form.template rest) := by
  obtain ⟨id, w₁, hcreate⟩ := exists_create w htakes.get_eq rest
  obtain ⟨r, hr⟩ := hattach w₁ id
  rw [htakes.construct_eq hcreate, hr] at h
  obtain ⟨f, hf, -, hw₁⟩ := create_eq_ok.1 hcreate
  obtain rfl := Except.ok.inj (htakes.get_eq.symm.trans hf)
  cases r with
  | error e => exact nomatch congrArg Prod.fst h
  | ok =>
    obtain ⟨hid, rfl⟩ := Prod.mk.inj h
    obtain rfl : id = p := Except.ok.inj hid
    rw [hw₁, find?_addBlock]
    exact if_pos rfl

/-- Parentheses around a value say nothing where those within all close one another, whether they
stand in string literals or not. Where they do not, though all is nested outside the literals, no
block has the value in its slot. -/
theorem readDocument_parenthesized (k : Setting) (hname : IsIdentifier name)
    (hline : Text.IsLine t) (hblank : Text.trim t ≠ []) (w : Workspace) :
    (closes 0 t = true →
      w.readDocument {} vocabulary (.ofList (k.line name ('(' :: (t ++ [')'])))) =
        w.readDocument {} vocabulary (.ofList (k.line name t))) ∧
      (closes 0 t = false → Nested 0 (outside .code t) → ∀ outcome w',
        w.readDocument {} vocabulary (.ofList (k.line name ('(' :: (t ++ [')'])))) = (outcome, w') →
          ∀ p ∈ outcome.blocks, ∃ b, w'.find? p = some b ∧ b.form = k.form.name ∧
            b.valueChild k.slot = none) := by
  have htrimmed : Text.trim ('(' :: (t ++ [')'])) = '(' :: (t ++ [')']) :=
    Text.trim_of_trimmed (trimmed_parenthesized t)
  have hline' : Text.IsLine ('(' :: (t ++ [')'])) := by
    simpa [Text.IsLine] using hline
  have hblank' : Text.trim ('(' :: (t ++ [')'])) ≠ [] := by
    rw [htrimmed]
    exact List.cons_ne_nil _ _
  have hread := readLine_line k w hname hline' hblank' le_rfl
  rw [htrimmed] at hread
  have htakes := takesOne_setting k (.ofList name) (.ofList ('(' :: (t ++ [')'])))
  rw [readDocument_line k w hname hline', hread]
  refine ⟨fun hcloses => ?_, fun hcloses hnested outcome w' h p hp => ?_⟩
  · have hle : (String.ofList (Text.trim t)).length ≤ t.length := by
      rw [String.length_ofList]
      exact Text.length_trim_le t
    have htakes' := takesOne_setting k (.ofList name) (.ofList (Text.trim t))
    have hbare := (bare_parenthesized hcloses).trans (bare_trim t).symm
    -- the blocks are created in the same order, and the argument is the same without parentheses
    rw [readDocument_line k w hname hline, readLine_line k w hname hline hblank le_rfl,
      htakes.construct_congr htakes' hbare (String.length_ofList ..).le hle]
  · obtain ⟨rfl, rfl⟩ := Prod.mk.inj h
    split at hp
    · next id w₁ hconstruct =>
      obtain rfl : p = id := List.mem_singleton.1 hp
      have hfind := construct_of_attach htakes
        (fun w p => attachArgument_parenthesized hcloses hnested _ p _) hconstruct
      exact ⟨_, hfind, rfl, valueChild_ofTemplate ..⟩
    · exact nomatch hp

/-- Parentheses around a product are dropped. A parenthesis in a string literal keeps those
around it, and nothing is in the slot. -/
theorem readDocument_parenthesized_of_product :
    (∅ : Workspace).readDocument {} vocabulary "y = ((1 + 2) * 3)" =
        (∅ : Workspace).readDocument {} vocabulary "y = (1 + 2) * 3" ∧
      ∀ p ∈ ((∅ : Workspace).readDocument {} vocabulary "y = (\"(\")").1.blocks,
        ∃ b, ((∅ : Workspace).readDocument {} vocabulary "y = (\"(\")").2.find? p = some b ∧
          b.form = "variables_set" ∧ b.valueChild "VALUE" = none := by
  have hname : IsIdentifier ['y'] := ⟨'y', [], rfl, by decide, nofun⟩
  have hproduct := readDocument_parenthesized .assign hname (t := "(1 + 2) * 3".toList) (by decide)
    (by decide) ∅
  have htext := readDocument_parenthesized .assign hname (t := "\"(\"".toList) (by decide)
    (by decide) ∅
  exact ⟨hproduct.1 (by decide), htext.2 (by decide) (by decide) _ _ rfl⟩

/-- The value is a string literal with a parenthesis in it, and so there is none outside literals. In
parentheses it is not found. -/
theorem parenthesized_text_lost :
    let read (text : String) := (∅ : Workspace).readDocument {} vocabulary text
    closes 0 (outside .code "\"(\"".toList) = true ∧ (read "y = \"(\"").2.Assigns 1 "y" 2 ∧
      ((read "y = \"(\"").2.find? 2).map Block.fields = some (fields [("TEXT", "(")]) ∧
        (read "y = (\"(\")").1.blocks = [1] ∧
          ((read "y = (\"(\")").2.find? 1).bind (Block.valueChild · "VALUE") = none := by
  decide +kernel

end Workspace

end ScriptBlocks
