import ScriptBlocks.Proofs.Expression.Arithmetic
import ScriptBlocks.Proofs.Reading.Assignment
import ScriptBlocks.Proofs.Run

/-!
# Reading arithmetic

Arithmetic that is assigned to a name is read as a tree with the value that the text has in the
dialect, as long as no sign stands in front of the base of a power. There the sign is taken for a
part of the base, though the dialect negates the power.

## Main statements

* `Workspace.readDocument_arithmetic` — what arithmetic is read as
* `Workspace.signed_base_negated` — where the value is another one
-/

namespace ScriptBlocks.Workspace

open Expression Dialect

/-- The line that assigns arithmetic is read as one block, which holds the tree with the signs at the
literals. If each sign belongs to a literal on its own, the tree has the value of the text whatever
the operators do and whatever values the names have. -/
theorem readDocument_arithmetic (commands : List Command) {s : List Char} {e : Arithmetic}
    (h : e.Parses 3 s) (hroom : (∅ : Workspace).creations
      (commands ++ [.readDocument {} vocabulary ("y = " ++ .ofList s)]) < wordLimit) :
    ∃ p u w', ((∅ : Workspace).run commands).readDocument {} vocabulary ("y = " ++ .ofList s) =
        ({ blocks := [p], unmatched := [], failures := [], unlinked := 0 }, w') ∧
      w'.Assigns p "y" u ∧ Holds w'.find? u (e.formula false) ∧
      (e.SignsLiterals → ∀ ops env,
        (e.formula false).value ops (Arithmetic.leafValue env) = e.value ops env) := by
  obtain ⟨hw, hroom⟩ := ready_of_creations hroom
  have hname : IsIdentifier "y".toList := ⟨'y', [], rfl, by decide, nofun⟩
  obtain ⟨p, u, w', hread, -, hassigns, hholds⟩ :=
    readDocument_assignment h.reads (h.wellTyped false).1 hname rfl hw hroom
  exact ⟨p, u, w', hread, hassigns, hholds, fun hsigns ops env =>
    Arithmetic.value_formula ops env hsigns⟩

/-- Signs in front of a factor and of an exponent, and a base in parentheses. -/
theorem readDocument_arithmetic_of_signs :
    let s := "a - -2*(b) ** -1".toList
    let e : Arithmetic := .binary .subtract (.name "a")
      (.binary .multiply (.negate (.literal ⟨2, by decide⟩))
        (.binary .power (.name "b") (.negate (.literal ⟨1, by decide⟩))))
    ∃ p u w', ((∅ : Workspace).run []).readDocument {} vocabulary ("y = " ++ .ofList s) =
        ({ blocks := [p], unmatched := [], failures := [], unlinked := 0 }, w') ∧
      w'.Assigns p "y" u ∧ Holds w'.find? u (e.formula false) ∧
      ∀ ops env, (e.formula false).value ops (Arithmetic.leafValue env) = e.value ops env := by
  intro s e
  have hblank : Blanks [' '] := fun c hc => .inl (List.mem_singleton.1 hc)
  have hnil : Blanks [] := nofun
  have ha : Leaf.IsName "a" := ⟨⟨'a', [], rfl, by decide, nofun⟩, by decide, by decide⟩
  have hb : Leaf.IsName "b" := ⟨⟨'b', [], rfl, by decide, nofun⟩, by decide, by decide⟩
  have hsigned {n : Nat} (hn : 1 ≤ n) {k : Fin (powerOfTen 15)} {c : Char} (hc : c.isDigit = true)
      (hk : Nat.toDigits 10 k = [c]) : (Arithmetic.negate (.literal k)).Parses n ['-', c] :=
    .negate hn ⟨c, rfl, hc⟩ (hk ▸ .literal 1 k)
  have hpower := Arithmetic.Parses.binary .power (Nat.le_refl 1) rfl hblank hblank
    (.paren 0 hnil hnil (.name 0 hb))
    (hsigned (k := ⟨1, by decide⟩) (Nat.le_refl 1) (c := '1') (by decide) (by decide))
  have hproduct := Arithmetic.Parses.binary .multiply (Nat.le_refl 2) rfl hnil hnil
    (hsigned (k := ⟨2, by decide⟩) (by decide) (c := '2') (by decide) (by decide)) hpower
  have hparses : e.Parses 3 s :=
    .binary .subtract (Nat.le_refl 3) rfl hblank hblank (.name 3 ha) hproduct
  obtain ⟨p, u, w', hread, hassigns, hholds, hvalue⟩ :=
    readDocument_arithmetic [] hparses
      (creations_readDocument_lt takesAtMost_vocabulary Nat.two_pos (by decide))
  exact ⟨p, u, w', hread, hassigns, hholds, hvalue (by decide)⟩

/-- In the dialect the sign negates the power, but what is read is a power of a negative number. -/
theorem signed_base_negated :
    let e : Arithmetic :=
      .negate (.binary .power (.literal ⟨2, by decide⟩) (.literal ⟨2, by decide⟩))
    let f : Formula := .binary .power (.leaf (.number (.int (-2)))) (.leaf (.number (.int 2)))
    let ops : Formula.Meaning := fun _ x y => some (x ^ y.num.toNat)
    e.Parses 3 "-2 ** 2".toList ∧
      (let read := (∅ : Workspace).readDocument {} vocabulary "y = -2 ** 2"
      read.1.blocks = [1] ∧ read.2.Assigns 1 "y" 2 ∧ Holds read.2.find? 2 f) ∧
      ∀ env, f.value ops (Arithmetic.leafValue env) = some 4 ∧ e.value ops env = some (-4) := by
  intro e f ops
  refine ⟨?_, by decide +kernel, fun env => ?_⟩
  · have hblank : Blanks [' '] := fun c hc => .inl (List.mem_singleton.1 hc)
    have htext : "-2 ** 2".toList = '-' :: (Nat.toDigits 10 2 ++
      ([' '] ++ (Operator.power.symbol.toList ++ ([' '] ++ Nat.toDigits 10 2)))) := by decide
    rw [htext]
    exact .negate (by decide) ⟨'2', by decide, by decide⟩ (.binary .power (Nat.le_refl 1) rfl hblank
      hblank (.literal 0 ⟨2, by decide⟩) (.literal 1 ⟨2, by decide⟩))
  · have hminus : (-2 : Int64).toInt = -2 := by decide
    have htwo : (2 : Int64).toInt = 2 := by decide
    simp only [e, f, ops, Formula.value, Arithmetic.value, Arithmetic.leafValue, hminus, htwo]
    exact ⟨rfl, rfl⟩

end ScriptBlocks.Workspace
