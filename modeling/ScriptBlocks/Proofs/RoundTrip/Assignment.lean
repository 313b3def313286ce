import ScriptBlocks.Proofs.Expression.Regroup
import ScriptBlocks.Proofs.Run
import ScriptBlocks.Proofs.Writing.Assignment

/-!
# Writing and reading statements with a value

An assignment that was written is read back as an assignment of an expression with the same text,
and so is a change by an amount. The two statements that show a value are another matter: their
forms match a literal only, so any other expression is lost, and with it the statement.

## Main statements

* `Workspace.readDocument_writtenSetting` — assignments and changes come back
* `Workspace.shown_name_not_read`, `Workspace.shown_reading_not_read` — what is shown does not
-/

namespace ScriptBlocks.Workspace

open Expression Dialect

/-- Whatever commands have made the workspaces, a block in one of them that sets a name to an
expression is written as one line, and the line is read in the other as one block of the same form
that sets the name to an expression with the same text. -/
theorem readDocument_writtenSetting (source target : List Command) (k : Setting) {p u : BlockId}
    {name : String} {f : Formula}
    (hsource : (∅ : Workspace).creations source < wordLimit)
    (htarget : (∅ : Workspace).creations (target ++
      [.readDocument {} vocabulary (name ++ k.sign ++ f.code ++ "\n")]) < wordLimit)
    (hnames : ((∅ : Workspace).run source).variableNames = ∅)
    (hnames' : ((∅ : Workspace).run target).variableNames = ∅)
    (h : ((∅ : Workspace).run source).Sets k p name u)
    (hname : IsIdentifier name.toList) (hkey : looksLikeKey name = false)
    (hf : Holds ((∅ : Workspace).run source).find? u f) (htyped : f.WellTyped) (hvalid : f.Valid)
    (hkeys : f.KeyFree) (hcompatible : Capability.compatible k.check f.output = true) :
    (∀ o, ((∅ : Workspace).run source).write vocabulary o p =
        .ok (name ++ k.sign ++ f.code ++ "\n")) ∧
      ∃ p' u' w', ((∅ : Workspace).run target).readDocument {} vocabulary
            (name ++ k.sign ++ f.code ++ "\n") =
          ({ blocks := [p'], unmatched := [], failures := [], unlinked := 0 }, w') ∧
        w'.Sets k p' name u' ∧ Holds w'.find? u' f.regroup ∧
        (∀ o, w'.write vocabulary o u' = .ok f.code) ∧
        ∀ o, w'.write vocabulary o p' = .ok (name ++ k.sign ++ f.code ++ "\n") := by
  have hne : name ≠ "" := by
    rintro rfl
    obtain ⟨c, cs, hc, -⟩ := hname
    exact nomatch hc
  have hwrite {w : Workspace} {p u : BlockId} {g : Formula} (hw : w.Consistent)
      (hnames : w.variableNames = ∅) (h : w.Sets k p name u) (hg : Holds w.find? u g)
      (hvalid : g.Valid) (hkeys : g.KeyFree) (o : WritingOptions) :
      w.write vocabulary o p = .ok (name ++ k.sign ++ g.code ++ "\n") := by
    have hu := renderWithin_holds (o := o) hg hvalid hkeys hnames (hw.height_le_size hg)
    rw [write, Workspace.render,
      renderWithin_setting h hu (Formula.code_ne_empty hvalid) hnames hne hkey]
    rfl
  obtain ⟨hw, -⟩ := consistent_run consistent_empty source (room_empty hsource)
  obtain ⟨hw', hroom⟩ := ready_of_creations htarget
  have hreads := Formula.reads_regroup hvalid
  obtain ⟨ops, hchunk, -⟩ := hreads.chunk
  have hattach : AttachesAs (k.line name.toList f.code.toList).length
      (.ofList f.code.toList) f.regroup.arrangement :=
    attachesAs_of_reads hreads (Formula.wellTyped_regroup htyped) rfl
      (Nat.le_of_lt (k.length_lt_line ..))
  have houtput : Capability.compatible k.check f.regroup.arrangement.output = true := by
    rw [← Formula.output_regroup f] at hcompatible
    exact hcompatible
  rw [← k.ofList_line] at hroom
  obtain ⟨p', u', w', hread, hplants, hsets, hholds⟩ := readDocument_setting (.inr rfl)
    (isValueText_of_chunk hchunk) hattach houtput hname hw' hroom
  rw [String.ofList_toList] at hsets
  rw [k.ofList_line] at hread
  have hholds : Holds w'.find? u' f.regroup := Arrangement.of_since hholds
  have hempty : w'.variableNames = ∅ := hplants.variableNames_eq.trans hnames'
  have hcode := Formula.code_regroup f
  refine ⟨hwrite hw hnames h hf hvalid hkeys, p', u', w', hread, hsets, hholds, ?_, ?_⟩
  · intro o
    rw [write_holds hplants.consistent hholds (Formula.valid_regroup hvalid)
      (Formula.keyFree_regroup hkeys) hempty, hcode]
  · intro o
    rw [hwrite hplants.consistent hempty hsets hholds (Formula.valid_regroup hvalid)
      (Formula.keyFree_regroup hkeys), hcode]

/-- A change by what a pin reads. -/
theorem readDocument_writtenSetting_of_change :
    let source : List Command :=
      [.create vocabulary "forever" ∅, .create vocabulary "math_change" (fields [("VAR", "n")]),
        .connectStatement 1 "DO" 2, .create vocabulary "microbit_pin_read" (fields [("PIN", "0")]),
        .connectValue 2 "DELTA" 3]
    let f : Formula := .leaf (.pin "0")
    (∀ o, ((∅ : Workspace).run source).write vocabulary o 2 =
        .ok ("n" ++ Setting.change.sign ++ f.code ++ "\n")) ∧
      ∃ p' u' w', ((∅ : Workspace).run []).readDocument {} vocabulary
            ("n" ++ Setting.change.sign ++ f.code ++ "\n") =
          ({ blocks := [p'], unmatched := [], failures := [], unlinked := 0 }, w') ∧
        w'.Sets .change p' "n" u' ∧ Holds w'.find? u' f.regroup ∧
        (∀ o, w'.write vocabulary o u' = .ok f.code) ∧
        ∀ o, w'.write vocabulary o p' =
          .ok ("n" ++ Setting.change.sign ++ f.code ++ "\n") := by
  intro source f
  have hname : IsIdentifier "n".toList := ⟨'n', [], rfl, by decide, nofun⟩
  have hpin : (Leaf.pin "0").Valid := ⟨by decide, by decide⟩
  have htarget : (∅ : Workspace).creations ([] ++
      [.readDocument {} vocabulary ("n" ++ Setting.change.sign ++ f.code ++ "\n")]) < wordLimit :=
    creations_readDocument_lt takesAtMost_vocabulary Nat.two_pos (by decide)
  exact readDocument_writtenSetting source [] .change (u := 3) (by decide) htarget rfl rfl
    (by decide +kernel) hname (by decide) (by decide +kernel) trivial hpin trivial rfl

/-- The text of a variable is shown by a line that no form matches. -/
theorem shown_name_not_read :
    let source : List Command :=
      [.create vocabulary "forever" ∅, .create vocabulary "show_string" ∅,
        .connectStatement 1 "DO" 2, .create vocabulary "variables_get" (fields [("VAR", "x")]),
        .connectValue 2 "TEXT" 3]
    ((∅ : Workspace).run source).write vocabulary {} 2 = .ok "basic.show_string(x)\n" ∧
      (∅ : Workspace).readDocument {} vocabulary "basic.show_string(x)\n" =
        ({ blocks := [], unmatched := [1], failures := [], unlinked := 0 }, ∅) := by
  decide +kernel

/-- A number that is read off the accelerometer is shown by a line that is taken for the reading
itself. -/
theorem shown_reading_not_read :
    let source : List Command :=
      [.create vocabulary "forever" ∅, .create vocabulary "show_number" ∅,
        .connectStatement 1 "DO" 2,
        .create vocabulary "microbit_accelerometer" (fields [("AXIS", "x")]), .connectValue 2 "NUM" 3]
    let line := "basic.show_number(accelerometer.get_x())\n"
    ((∅ : Workspace).run source).write vocabulary {} 2 = .ok line ∧
      ((∅ : Workspace).readDocument {} vocabulary line).1 =
        { blocks := [1], unmatched := [], failures := [], unlinked := 0 } ∧
      (((∅ : Workspace).readDocument {} vocabulary line).2.find? 1).map Block.form =
        some "microbit_accelerometer" := by
  decide +kernel

end ScriptBlocks.Workspace
