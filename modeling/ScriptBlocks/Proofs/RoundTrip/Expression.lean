import ScriptBlocks.Proofs.Expression.Regroup
import ScriptBlocks.Proofs.Reading.Assignment
import ScriptBlocks.Proofs.Run
import ScriptBlocks.Proofs.Writing.Expression

/-!
# Writing and reading an expression

An expression that was written is read back as an expression of the same text and the same value. It
need not be the same tree: where a right operand is written without parentheses though it is an
operation of the same kind, the tree that is read is grouped to the left.

## Main statements

* `Workspace.readDocument_written` — the text stays, and so does the value
-/

namespace ScriptBlocks.Workspace

open Expression Dialect

/-- Whatever commands have made the workspaces, an expression without further variables in one of
them is written, and its text, assigned to a name, is read in the other as an expression with the
same text and the same value. -/
theorem readDocument_written (source target : List Command) (id : BlockId) (f : Formula)
    (hsource : (∅ : Workspace).creations source < wordLimit)
    (htarget : (∅ : Workspace).creations
      (target ++ [.readDocument {} vocabulary ("y = " ++ f.code)]) < wordLimit)
    (hnames : ((∅ : Workspace).run source).variableNames = ∅)
    (hnames' : ((∅ : Workspace).run target).variableNames = ∅)
    (h : Holds ((∅ : Workspace).run source).find? id f) (htyped : f.WellTyped) (hvalid : f.Valid)
    (hkeys : f.KeyFree) :
    (∀ o, ((∅ : Workspace).run source).write vocabulary o id = .ok f.code) ∧
      ∃ p u g w', ((∅ : Workspace).run target).readDocument {} vocabulary ("y = " ++ f.code) =
          ({ blocks := [p], unmatched := [], failures := [], unlinked := 0 }, w') ∧
        w'.Assigns p "y" u ∧ Holds w'.find? u g ∧ g.Valid ∧
        (∀ o, w'.write vocabulary o u = .ok f.code) ∧
        ∀ ops : Formula.Meaning, ops.Exact → ∀ env, g.value ops env = f.value ops env := by
  obtain ⟨hw, -⟩ := consistent_run consistent_empty source (room_empty hsource)
  obtain ⟨hw', hroom⟩ := ready_of_creations htarget
  have hname : IsIdentifier "y".toList := ⟨'y', [], rfl, by decide, nofun⟩
  have hreads := Formula.reads_regroup hvalid
  obtain ⟨p, u, w', hread, hplants, hassigns, hholds⟩ := readDocument_assignment hreads
    (Formula.wellTyped_regroup htyped) hname (by rw [String.ofList_toList]; rfl) hw' hroom
  have hempty : w'.variableNames = ∅ := hplants.variableNames_eq.trans hnames'
  refine ⟨fun o => write_holds hw h hvalid hkeys hnames, p, u, f.regroup, w', hread, hassigns,
    hholds, Formula.valid_regroup hvalid, fun o => ?_, fun ops hops env => ?_⟩
  · rw [write_holds hplants.consistent hholds (Formula.valid_regroup hvalid)
      (Formula.keyFree_regroup hkeys) hempty, Formula.code_regroup]
  · exact Formula.value_regroup hops env f

/-- The right operand of the sum is written without parentheses, so the tree that is read is another
one. -/
theorem readDocument_written_of_sum :
    let source : List Command :=
      [.create vocabulary "math_arithmetic" (fields [("OP", "ADD")]),
        .create vocabulary "variables_get" (fields [("VAR", "a")]),
        .create vocabulary "math_arithmetic" (fields [("OP", "MINUS")]),
        .create vocabulary "microbit_accelerometer" (fields [("AXIS", "x")]),
        .create vocabulary "math_number" (fields [("NUM", .int (-1))]),
        .connectValue 1 "A" 2, .connectValue 3 "A" 4, .connectValue 3 "B" 5, .connectValue 1 "B" 3]
    let f : Formula := .binary .add (.leaf (.name "a"))
      (.binary .subtract (.leaf (.acceleration 'x')) (.leaf (.number (.int (-1)))))
    f.code = "a + accelerometer.get_x() - -1" ∧
      (∀ o, ((∅ : Workspace).run source).write vocabulary o 1 = .ok f.code) ∧
      ∃ p u g w', ((∅ : Workspace).run []).readDocument {} vocabulary ("y = " ++ f.code) =
          ({ blocks := [p], unmatched := [], failures := [], unlinked := 0 }, w') ∧
        w'.Assigns p "y" u ∧ Holds w'.find? u g ∧ g.Valid ∧
        (∀ o, w'.write vocabulary o u = .ok f.code) ∧
        ∀ ops : Formula.Meaning, ops.Exact → ∀ env, g.value ops env = f.value ops env := by
  intro source f
  have hname : (Leaf.name "a").Valid :=
    ⟨⟨'a', [], rfl, by decide, nofun⟩, by decide, by decide, by decide⟩
  have hone : (-1 : Int64) = .ofInt (-1) := by decide
  have hvalid : f.Valid := ⟨hname, .inl rfl, hone ▸ Leaf.isNumber_ofInt (i := -1) (by decide)⟩
  have hkey : looksLikeKey "a" = false := by decide
  have hcode : f.code = "a + accelerometer.get_x() - -1" := by decide +kernel
  have htarget : (∅ : Workspace).creations
      ([] ++ [.readDocument {} vocabulary ("y = " ++ f.code)]) < wordLimit := by
    rw [hcode]
    exact creations_readDocument_lt takesAtMost_vocabulary Nat.two_pos (by decide)
  exact ⟨hcode, readDocument_written source [] 1 f (by decide) htarget rfl rfl (by decide +kernel)
    ⟨rfl, rfl, trivial, rfl, rfl, trivial, trivial⟩ hvalid ⟨hkey, trivial, trivial⟩⟩

/-- An infinite number is read off a long numeral and written by name. As a number the name is read
back, but not as an expression: no form matches it as a whole, and the slot stays empty. -/
theorem infinite_number_not_read :
    let value : Value := .float (.infinite true)
    let numeral := '-' :: '1' :: List.replicate 310 '0'
    let source : List Command :=
      [.create vocabulary "variables_set" ∅,
        .create vocabulary "math_number" (fields [("NUM", value)]), .connectValue 1 "VALUE" 2]
    let f : Formula := .leaf (.number value)
    (∃ c, mathNumber.matchWhole (.ofList numeral) = some c ∧
        mathNumber.readFields c = .ok (fields [("NUM", value)])) ∧
      Holds ((∅ : Workspace).run source).find? 2 f ∧ f.WellTyped ∧ f.KeyFree ∧
      number f.code = .ok value ∧
      ((∅ : Workspace).run source).write vocabulary {} 2 = .ok f.code ∧
      ¬ ∃ p u w', (∅ : Workspace).readDocument {} vocabulary ("y = " ++ f.code) =
          ({ blocks := [p], unmatched := [], failures := [], unlinked := 0 }, w') ∧
        w'.Assigns p "y" u := by
  intro value numeral source f
  have hdigits : ∀ c ∈ '1' :: List.replicate 310 '0', c.isDigit = true := by decide +kernel
  have hnumeral : Text.IsNumeral numeral true ('1' :: List.replicate 310 '0') [] :=
    Text.isNumeral_of_digits true hdigits (List.cons_ne_nil _ _)
  have hnumber : number (.ofList numeral) = .ok value := by
    have hvalue : Value.ofNumber (powerOfTen 15) (Binary64.ofDecimal true
        (Text.ofDigits ('1' :: List.replicate 310 '0')) 0) = value := by
      decide +kernel
    rw [← hvalue]
    exact number_of_digits true hdigits (List.cons_ne_nil _ _)
  refine ⟨takes_mathNumber_of_isNumeral hnumeral hnumber, by decide +kernel, trivial, trivial,
    by decide +kernel, by decide +kernel, ?_⟩
  · rintro ⟨p, u, w', hread, b, hb, -, -, hslots⟩
    have hempty : ((∅ : Workspace).readDocument {} vocabulary ("y = " ++ f.code)).1.blocks = [1] ∧
        (((∅ : Workspace).readDocument {} vocabulary ("y = " ++ f.code)).2.find? 1).map
          (·.slots.entries) = some [("VALUE", .value none none)] := by
      decide +kernel
    rw [hread] at hempty
    obtain ⟨rfl⟩ : p = 1 := List.singleton_inj.1 hempty.1
    rw [hb, Option.map_some, hslots] at hempty
    exact absurd hempty.2 (by simp)

end ScriptBlocks.Workspace
