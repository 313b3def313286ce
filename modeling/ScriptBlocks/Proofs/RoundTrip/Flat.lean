import ScriptBlocks.Proofs.Dialect.Landmark
import ScriptBlocks.Proofs.Expression.Flat
import ScriptBlocks.Proofs.Reading.Expression
import ScriptBlocks.Proofs.Run
import ScriptBlocks.Proofs.Writing.Expression

/-!
# Reading and writing flat arithmetic

A line of arithmetic without parentheses goes to the form for operations, since all forms before it
look for signs that arithmetic does not have. It is read as the one tree that is written without
parentheses, so it is written as it was read.

## Main statements

* `Dialect.firstMatch_operation` — the form that the line goes to
* `Workspace.readLine_operation` — what the line becomes
* `Workspace.readDocument_flat` — flat arithmetic is written as it was read
-/

namespace ScriptBlocks

open Expression Dialect

variable {op : Operator} {s t a b : List Char} {f g : Formula}

namespace Dialect

/-- The forms before the one for arithmetic look for words with one of these signs. -/
theorem exists_sign_of_landmarks : ∀ e ∈ landmarks, ∃ words ∈ e.2, ∀ word ∈ words,
    ∃ c ∈ word.toList, c ∈ ['=', '(', ':', '"', '\'', '<', '>'] := by
  decide

/-- A line with an operation goes to the form for arithmetic, if there is nothing else in it than
operands and operators. -/
theorem firstMatch_operation (hop : op.isComparison = false) (hs : Reads op.left s f)
    (ht : Reads op.right t g) (ha : Blanks a) (hb : Blanks b)
    (hchars : ∀ c ∈ s ++ (a ++ (op.symbol.toList ++ (b ++ t))),
      Text.isWord c = true ∨ c ∈ [' ', '+', '-', '*', '/']) :
    ∃ c, vocabulary.firstMatch (.ofList (s ++ (a ++ (op.symbol.toList ++ (b ++ t))))) =
        some (op.form, c) ∧
      op.form.readFields c = .ok (fields
        [("A", .string (.ofList s)), ("OP", .string op.code), ("B", .string (.ofList t))]) := by
  obtain ⟨c, hmatch, hread⟩ := takes_mathArithmetic hop hs ht ha hb
  have hform : op.form = mathArithmetic := by
    rw [Operator.form, hop, if_neg Bool.false_ne_true]
  rw [Form.matchWhole_eq, Option.filter_eq_some_iff] at hmatch
  rw [hform]
  refine ⟨c, firstMatch_of_landmarks 26 rfl (Nat.le_refl 26) (fun e he => ?_) hmatch.1, hread⟩
  obtain ⟨words, hwords, hsign⟩ := exists_sign_of_landmarks e (List.mem_of_mem_take he)
  refine ⟨words, hwords, fun word hword hin => ?_⟩
  obtain ⟨d, hd, hsign⟩ := hsign word hword
  have hnot : ∀ d ∈ ['=', '(', ':', '"', '\'', '<', '>'],
      ¬ (Text.isWord d = true ∨ d ∈ [' ', '+', '-', '*', '/']) := by
    decide
  exact hnot d hsign (hchars d (hin.subset hd))

end Dialect

namespace Workspace

variable {w w' : Workspace} {o : ReadingOptions} {v : Vocabulary} {id : BlockId} {line : List Char}

/-- A document of one line becomes what the line becomes. -/
theorem readDocument_of_built (hline : Text.IsLine line)
    (h : w.readLine o v (.ofList line) = (.built id, w')) : w.readDocument o v (.ofList line) =
      ({ blocks := [id], unmatched := [], failures := [], unlinked := 0 }, w') := by
  rw [readDocument, String.toList_ofList, Text.documentLines_eq_singleton hline]
  simp only [List.map_cons, List.map_nil, readLines, h]
  rfl

/-- A line with an operation becomes the tree for it. -/
theorem readLine_operation (hop : op.isComparison = false) (hs : Reads op.left s f)
    (ht : Reads op.right t g) (ha : Blanks a) (hb : Blanks b)
    (hline : line = s ++ (a ++ (op.symbol.toList ++ (b ++ t))))
    (hchars : ∀ c ∈ line, Text.isWord c = true ∨ c ∈ [' ', '+', '-', '*', '/'])
    (htyped : (Formula.binary op f g).WellTyped) (hkept : o.ignores (.ofList line) = false)
    (hw : w.Consistent) (hroom : w.Room (readLineCreations o vocabulary w (.ofList line))) :
    ∃ p w', w.readLine o vocabulary (.ofList line) = (.built p, w') ∧
      Holds w'.find? p (.binary op f g) := by
  subst hline
  obtain ⟨ops, hchunk, -⟩ := (Reads.binary op (Nat.le_refl _) ha hb hs ht).chunk
  have htrim : String.ofList (Text.trim
      (String.ofList (s ++ (a ++ (op.symbol.toList ++ (b ++ t))))).toList) =
        .ofList (s ++ (a ++ (op.symbol.toList ++ (b ++ t)))) := by
    rw [String.toList_ofList, Text.trim_of_trimmed hchunk.trimmed]
  obtain ⟨c, hmatch, hread⟩ := firstMatch_operation hop hs ht ha hb hchars
  obtain ⟨hresult, hcreations⟩ := readLine_of_match (w := w) htrim hkept hmatch hread
  rw [hcreations] at hroom
  -- the operands are shorter than the line, which is the depth that the reader allows
  have hleft : s.length ≤ (String.ofList (s ++ (a ++ (op.symbol.toList ++ (b ++ t))))).length := by
    rw [String.length_ofList, List.length_append]
    omega
  have hright : t.length ≤ (String.ofList (s ++ (a ++ (op.symbol.toList ++ (b ++ t))))).length := by
    rw [String.length_ofList]
    simp only [List.length_append]
    omega
  obtain ⟨p, w', hconstruct, hconstructs⟩ := constructs_binary hw
    (attachesAs_of_reads hs htyped.2.2.1 rfl hleft) (attachesAs_of_reads ht htyped.2.2.2 rfl hright)
    htyped hroom
  refine ⟨p, w', ?_, Arrangement.of_since hconstructs.holds⟩
  rw [hresult, hconstruct]

/-- Where no name is declared, a line of flat arithmetic becomes one block, and that is written as the
line, whatever the options for reading, unless they pass over the line, and for writing. -/
theorem readDocument_flat (commands : List Command) (t : Flat)
    (hnames : ((∅ : Workspace).run commands).variableNames = ∅) :
    ({} : ReadingOptions).ignores t.text = false ∧
      ∀ o : ReadingOptions, o.ignores t.text = false →
        (∅ : Workspace).creations (commands ++ [.readDocument o vocabulary t.text]) < wordLimit →
          ∃ p w', ((∅ : Workspace).run commands).readLine o vocabulary t.text = (.built p, w') ∧
            ((∅ : Workspace).run commands).readDocument o vocabulary t.text =
              ({ blocks := [p], unmatched := [], failures := [], unlinked := 0 }, w') ∧
            ∀ o', w'.write vocabulary o' p = .ok t.text := by
  have hflat := t.isFlat_formula
  -- the text is read as the tree, or as one of the same level that has the same text
  have hreads := Formula.reads_regroup hflat.valid
  obtain ⟨op, f, g, hformula⟩ := t.exists_formula_eq
  obtain ⟨op', f', g', hregroup, hlevel⟩ : ∃ op' f' g', t.formula.regroup = .binary op' f' g' ∧
      op'.level = op.level := by
    rw [hformula]
    exact Formula.exists_graft_eq op f.regroup g.regroup
  have hop : op'.isComparison = false := by
    have hnumber := hflat.isNumber
    rw [hformula] at hnumber
    rw [Operator.isComparison, hlevel]
    exact Formula.arithmetic_of_output hnumber
  have hcode : t.formula.regroup.code = t.text := (Formula.code_regroup _).trans t.code_formula
  rw [hregroup, t.code_formula] at hreads
  have hhead : t.text.toList.head? ≠ some '(' := by
    intro hparen
    exact absurd (t.mem_text '(' (List.mem_of_mem_head? hparen)) (by decide)
  obtain ⟨u, v, x, y, htext, hx, hy, hu, hv⟩ := hreads.exists_operands hhead
  obtain ⟨ops, hchunk, -⟩ := hreads.chunk
  constructor
  · rw [← String.ofList_toList (s := t.text)]
    cases hcons : t.text.toList with
    | nil => exact absurd hcons hchunk.ne_nil
    | cons c s =>
      have hcomment : c ≠ '#' := by
        rintro rfl
        exact absurd (t.mem_text '#' (hcons ▸ List.mem_cons_self)) (by decide)
      refine ignores_eq_false hcomment fun hword => ?_
      -- the sign of the operator is not in the word
      obtain ⟨d, hd, hnot⟩ : ∃ d ∈ op'.symbol.toList, d ∉ "pass".toList := by
        cases op' <;> decide
      rw [← hword, ← hcons, htext] at hnot
      exact hnot (by simp [hd])
  · intro o hkept hlimit
    obtain ⟨hw, hroom⟩ := ready_of_creations hlimit
    have hisLine : Text.IsLine t.text.toList := ⟨hchunk.not_mem.1, hchunk.not_mem.2.1⟩
    have hroom : ((∅ : Workspace).run commands).Room (readLineCreations o vocabulary
        ((∅ : Workspace).run commands) (.ofList t.text.toList)) := by
      rw [creationsOf, readDocumentCreations, Text.documentLines_eq_singleton hisLine] at hroom
      exact hroom.left
    have htyped := Formula.wellTyped_regroup hflat.wellTyped
    rw [hregroup] at htyped
    rw [← String.ofList_toList (s := t.text)] at hkept ⊢
    obtain ⟨p, w', hread, hholds⟩ :=
      readLine_operation hop hu hv hx hy htext t.mem_text htyped hkept hw hroom
    refine ⟨p, w', hread, readDocument_of_built hisLine hread, fun o' => ?_⟩
    obtain ⟨hplants, -⟩ := readLine_spec (o := o) (v := vocabulary) hw _ hroom
    rw [hread] at hplants
    rw [← hregroup] at hholds
    rw [write_holds hplants.consistent hholds (Formula.valid_regroup hflat.valid)
      (Formula.keyFree_regroup hflat.keyFree) (hplants.variableNames_eq.trans hnames), hcode,
      String.ofList_toList]

/-- Powers group to the right, between operators that group to the left. -/
theorem readDocument_flat_of_powers :
    let t : Flat := {
      first := .name "a" ⟨⟨'a', [], rfl, by decide, List.forall_mem_nil _⟩, by decide, by decide⟩ (by decide)
      rest := [⟨.subtract, rfl, .literal ⟨10, by decide⟩⟩, ⟨.divide, rfl, .literal ⟨2, by decide⟩⟩,
        ⟨.power, rfl, .literal ⟨3, by decide⟩⟩, ⟨.power, rfl, .literal ⟨4, by decide⟩⟩,
        ⟨.multiply, rfl, .literal ⟨5, by decide⟩⟩, ⟨.add, rfl, .literal ⟨0, by decide⟩⟩]
      ne_nil := List.cons_ne_nil _ _ }
    t.text = "a - 10 / 2 ** 3 ** 4 * 5 + 0" ∧
      ∃ p w', ((∅ : Workspace).run []).readLine {} vocabulary t.text = (.built p, w') ∧
        ((∅ : Workspace).run []).readDocument {} vocabulary t.text =
          ({ blocks := [p], unmatched := [], failures := [], unlinked := 0 }, w') ∧
        ∀ o', w'.write vocabulary o' p = .ok t.text := by
  intro t
  have htext : t.text = "a - 10 / 2 ** 3 ** 4 * 5 + 0" := by decide
  obtain ⟨hkept, hread⟩ := readDocument_flat [] t rfl
  have hlimit : (∅ : Workspace).creations ([] ++ [.readDocument {} vocabulary t.text]) <
      wordLimit := by
    rw [htext]
    exact creations_readDocument_lt takesAtMost_vocabulary Nat.two_pos (by decide)
  exact ⟨htext, hread {} hkept hlimit⟩

end Workspace

end ScriptBlocks
