import ScriptBlocks.Proofs.Dialect.Recognition
import ScriptBlocks.Proofs.Number.Integer
import ScriptBlocks.Proofs.Run
import ScriptBlocks.Proofs.Writing.Assignment

/-!
# Integers in source text

An integer that is assigned to a name is kept as the nearest double, and written as the shortest
digits that give that double again. So the line comes back just if no other integer is a better text
of the same double: the digits of all smaller integers come back, those of a larger one only if it
ends in enough zeros.

## Main statements

* `Workspace.readDocument_integer` — which integers come back from the line that assigns them
* `Workspace.odd_integer_not_written` — the first one that does not
-/

namespace ScriptBlocks.Workspace

open Expression Dialect

variable {w : Workspace} {o : WritingOptions} {id : BlockId} {value : Value}

/-- The block of a number is written as the text of the number, even of one whose text would not be
read again. -/
theorem renderWithin_number {depth : Nat} (h : Holds w.find? id (.leaf (.number value)))
    (hne : value.toText ≠ "") : ∃ strength, renderWithin vocabulary o w (depth + 1) id =
      .ok (.expression value.toText strength) := by
  obtain ⟨b, hb, hform, hfields, hslots⟩ := h
  obtain ⟨p, hparts, hsame, -⟩ :=
    w.parts_single mathNumber o (renderWithin vocabulary o w depth) id hslots
  have hget : vocabulary.get b.form = .ok mathNumber := by
    rw [hform]
    exact (Leaf.number value).get_form
  have hfield : p.fieldOr "NUM" "0" = value.toText := by
    refine Fields.textOr_eq ?_ hne
    rw [hsame]
    exact hfields ("NUM", value) List.mem_cons_self
  rw [renderWithin, get_of_find? hb]
  simp only [bind, Except.bind, hget, hparts]
  change ∃ strength, Except.ok (Fragment.expression (p.fieldOr "NUM" "0") _) = _
  rw [hfield]
  exact ⟨_, rfl⟩

/-- The line that assigns an integer is read as one block. It is written as the same line just if the
integer is the best text of the double it is kept as: always below `2 ^ 53`, and above if it has at
most fifteen digits before its zeros, unless it is as large as `2 ^ 1023`. -/
theorem readDocument_integer (commands : List Command) (i : Int)
    (hy : ((∅ : Workspace).run commands).variableName? "y" = none)
    (hroom : (∅ : Workspace).creations
      (commands ++ [.readDocument {} vocabulary ("y = " ++ toString i)]) < wordLimit) :
    (∃ p w', ((∅ : Workspace).run commands).readDocument {} vocabulary ("y = " ++ toString i) =
        ({ blocks := [p], unmatched := [], failures := [], unlinked := 0 }, w') ∧
      ∀ o, w'.write vocabulary o p = .ok ("y = " ++ toString i ++ "\n") ↔
        Binary64.IsPreferred i.natAbs) ∧
    (i.natAbs < 2 ^ 53 → Binary64.IsPreferred i.natAbs) ∧
    ∀ d k, d < 10 ^ 15 → i.natAbs = d * 10 ^ k → i.natAbs.log2 < 1023 →
      Binary64.IsPreferred i.natAbs := by
  refine ⟨?_, fun h => Binary64.isPreferred_of_lt h,
    fun d k hd hn hlog => Binary64.isPreferred_of_digits hd hn hlog⟩
  obtain ⟨hw, hroom⟩ := ready_of_creations hroom
  obtain ⟨value, hnumber, hne, hiff⟩ := Dialect.exists_number_toString i
  rw [← String.ofList_toList (s := toString i)] at hnumber
  have hname : IsIdentifier "y".toList := ⟨'y', [], rfl, by decide, nofun⟩
  have hspelled : (Leaf.number value).Spelled (toString i).toList :=
    .numeral (Text.isNumeral_toString i) hnumber
  obtain ⟨p, u, w', hread, hplants, hassigns, hholds⟩ := readDocument_assignment
    (.leaf 0 hspelled) trivial hname (by rw [String.ofList_toList]; rfl) hw hroom
  refine ⟨p, w', hread, fun o => ?_⟩
  have hresolved : w'.resolveName "y" o.fallbackVariable = "y" := by
    rw [resolveName, variableName?, hplants.variableNames_eq, ← variableName?, hy]
    rfl
  obtain ⟨n, hn⟩ : ∃ n, w'.size = n + 1 :=
    Nat.exists_eq_add_of_le' (hplants.consistent.height_le_size hholds)
  obtain ⟨strength, hu⟩ : ∃ strength, renderWithin vocabulary o w' (n + 1) u =
      .ok (.expression value.toText strength) := renderWithin_number hholds hne
  rw [← hn] at hu
  have hwrite : w'.write vocabulary o p = .ok ("y = " ++ value.toText ++ "\n") := by
    rw [write, Workspace.render, renderWithin_sets hassigns hu hne, hresolved]
    rfl
  rw [hwrite, ← hiff]
  simp

/-- Twenty digits, most of them zeros, behind the comment that is skipped. -/
theorem readDocument_integer_of_zeros :
    let commands : List Command := [.readDocument {} vocabulary "# a comment\nn = 1"]
    let i : Int := -12300000000000000000
    ∃ p w', ((∅ : Workspace).run commands).readDocument {} vocabulary ("y = " ++ toString i) =
        ({ blocks := [p], unmatched := [], failures := [], unlinked := 0 }, w') ∧
      w'.write vocabulary {} p = .ok ("y = " ++ toString i ++ "\n") := by
  intro commands i
  have hname : ((∅ : Workspace).run commands).variableName? "y" = none := by decide +kernel
  have hfirst : (∅ : Workspace).creations commands ≤ 3 ^ 12 + 3 ^ 6 :=
    (readDocumentCreations_le takesAtMost_vocabulary Nat.two_pos ..).trans (by decide)
  have hlimit : (∅ : Workspace).creations
      (commands ++ [.readDocument {} vocabulary ("y = " ++ toString i)]) < wordLimit :=
    creations_readDocument_lt takesAtMost_vocabulary Nat.two_pos
      ((Nat.add_le_add_right hfirst _).trans_lt (by decide))
  obtain ⟨⟨p, w', hread, hwrite⟩, -, hpreferred⟩ := readDocument_integer commands i hname hlimit
  exact ⟨p, w', hread,
    (hwrite {}).2 (hpreferred 123 17 (by decide) (by decide) (by decide))⟩

/-- The first odd integer beyond the doubles that hold every integer is written as its neighbour. -/
theorem odd_integer_not_written :
    let read := (∅ : Workspace).readDocument {} vocabulary "y = 9007199254740993"
    read.1 = { blocks := [1], unmatched := [], failures := [], unlinked := 0 } ∧
      read.2.write vocabulary {} 1 = .ok "y = 9007199254740992\n" := by
  decide +kernel

end ScriptBlocks.Workspace
