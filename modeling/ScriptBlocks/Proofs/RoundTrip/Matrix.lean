import ScriptBlocks.Proofs.Reading.Matrix
import ScriptBlocks.Proofs.Writing.Expression
import ScriptBlocks.Proofs.Writing.Gating
import ScriptBlocks.Proofs.Writing.Globals

/-!
# Writing and reading a picture

The field of a picture may hold any text. What is written for it are five rows of five lights, and what
is read off that is a matrix with these rows. Once the field holds such a matrix nothing changes any
more.

## Main definitions

* `Workspace.ShowsMatrix` — a picture in a place where it has a text

## Main statements

* `Workspace.write_of_showsMatrix` — the text of a picture
* `Workspace.readAs_writtenMatrix` — what becomes of it when it is read
-/

namespace ScriptBlocks.Workspace

open Dialect

/-- The block is a picture with this matrix beneath an entry point, and neither the block nor anything
around it is disabled. -/
structure ShowsMatrix (w : Workspace) (id : BlockId) (matrix : String) : Prop where
  hasMatrix : w.HasMatrix id matrix
  isOn : ¬ w.IsOff id
  isOn_around {p : BlockId} : Relation.TransGen w.Encloses p id → ¬ w.IsOff p
  isEntry_rootOf : w.IsEntry vocabulary (w.rootOf id)

variable {w : Workspace} {id : BlockId} {matrix : String}

theorem Consistent.showsMatrix_iff (hw : w.Consistent) : w.ShowsMatrix id matrix ↔
    w.HasMatrix id matrix ∧ isSuppressed vocabulary w id = false := by
  have hiff (h : w.HasMatrix id matrix) : isSuppressed vocabulary w id = true ↔ _ :=
    let ⟨_, hb, _⟩ := h
    hw.isSuppressed_iff (contains_of_find? hb)
  constructor
  · intro h
    refine ⟨h.hasMatrix, ?_⟩
    rw [← Bool.not_eq_true, hiff h.hasMatrix]
    rintro (hoff | ⟨p, hp, hoff⟩ | ⟨root, habove, htop, hentry⟩)
    · exact h.isOn hoff
    · exact h.isOn_around hp hoff
    · obtain rfl := hw.rootOf_eq_iff.2 ⟨habove, htop⟩
      exact hentry h.isEntry_rootOf
  · rintro ⟨h, hactive⟩
    rw [← Bool.not_eq_true, hiff h, not_or, not_or] at hactive
    obtain ⟨hon, haround, hroot⟩ := hactive
    obtain ⟨habove, htop⟩ := hw.rootOf_eq_iff.1 (rfl : w.rootOf id = w.rootOf id)
    refine ⟨h, hon, fun hp hoff => haround ⟨_, hp, hoff⟩, ?_⟩
    by_contra hentry
    exact hroot ⟨_, habove, htop, hentry⟩

/-- The rows are written whatever else the field holds. -/
theorem write_of_showsMatrix (hw : w.Consistent) (hf : w.FormedBy vocabulary)
    (h : w.ShowsMatrix id matrix) (o : WritingOptions) :
    w.write vocabulary o id = .ok (matrixText (matrixRows matrix.toList)) := by
  obtain ⟨⟨b, hb, hform, hfield⟩, hactive⟩ := hw.showsMatrix_iff.1 h
  have hfind : vocabulary.find? b.form = some basicShowLeds := by
    rw [hform]
    rfl
  obtain ⟨p, hparts, hrender⟩ :=
    exists_parts_of_isSuppressed_eq_false hw hf (o := o) hb hfind hactive
  obtain ⟨-, -, hfields, -⟩ := gathers_of_parts hparts
  have htext : p.fieldText "MATRIX" = matrix := by
    rw [Parts.fieldText, hfields]
    exact Fields.text_eq hfield
  rw [write, hrender, ← htext]
  rfl

/-- Whatever text the field of a picture holds, in any workspace that commands can make: the text that
is written for it is read, in any workspace, as a picture whose matrix has five rows of five marks. Each
row has the first five marks of the line with its number, and dots where there are no more. A picture
with that matrix is written as the same text. -/
theorem readAs_writtenMatrix (source : List Command)
    (hroom : (∅ : Workspace).creations source < wordLimit)
    (huses : ∀ command ∈ source, command.Uses vocabulary)
    (h : ((∅ : Workspace).run source).ShowsMatrix id matrix) :
    ∃ code rows, (∀ o, ((∅ : Workspace).run source).write vocabulary o id = .ok code) ∧
      IsMatrix rows ∧ IsMatrixOf rows matrix.toList ∧
      (∀ w : Workspace, ∃ id' w', w.readAs vocabulary code basicShowLeds.name =
        (.ok (some id'), w') ∧ w'.HasMatrix id' (joinRows "\n" rows)) ∧
      ∀ (target : List Command) (id' : BlockId), (∅ : Workspace).creations target < wordLimit →
        (∀ command ∈ target, command.Uses vocabulary) →
        ((∅ : Workspace).run target).ShowsMatrix id' (joinRows "\n" rows) →
        ∀ o, ((∅ : Workspace).run target).write vocabulary o id' = .ok code := by
  have hmatrix := isMatrix_matrixRows matrix.toList
  obtain ⟨hw, -⟩ := consistent_run consistent_empty source (room_empty hroom)
  refine ⟨matrixText (matrixRows matrix.toList), matrixRows matrix.toList,
    write_of_showsMatrix hw (formedBy_run huses) h, hmatrix, isMatrixOf_matrixRows _, fun w => ?_,
    fun target id' hroom' huses' h' o => ?_⟩
  · -- the content starts with a line feed, which is left out when it is read
    obtain ⟨id', w', hread, hrows⟩ := readAs_of_picture? w (picture?_matrixText hmatrix)
    rw [afterLineFeed, matrixRows_spaced hmatrix] at hrows
    exact ⟨id', w', hread, hrows⟩
  · obtain ⟨hw', -⟩ := consistent_run consistent_empty target (room_empty hroom')
    rw [write_of_showsMatrix hw' (formedBy_run huses') h', matrixRows_joinRows hmatrix]

/-- A field with line ends of two characters, quotes, other characters, a row that is too long, and two
that are missing. -/
theorem readAs_writtenMatrix_of_noise :
    let matrix := "# # #.#.\r\n\r.a\"\"\")\n\n"
    let source : List Command :=
      [.create vocabulary "on_start" ∅, .create vocabulary "basic_show_leds" ∅,
        .connectStatement 1 "DO" 2, .setField 2 "MATRIX" (.string matrix)]
    let w := (∅ : Workspace).run source
    w.ShowsMatrix 2 matrix ∧
    ∃ code rows, (∀ o, w.write vocabulary o 2 = .ok code) ∧
      IsMatrix rows ∧ IsMatrixOf rows matrix.toList ∧
      (∀ w : Workspace, ∃ id' w', w.readAs vocabulary code basicShowLeds.name =
        (.ok (some id'), w') ∧ w'.HasMatrix id' (joinRows "\n" rows)) ∧
      ∀ (target : List Command) (id' : BlockId), (∅ : Workspace).creations target < wordLimit →
        (∀ command ∈ target, command.Uses vocabulary) →
        ((∅ : Workspace).run target).ShowsMatrix id' (joinRows "\n" rows) →
        ∀ o, ((∅ : Workspace).run target).write vocabulary o id' = .ok code := by
  intro matrix source w
  have h : (∅ : Workspace).creations source < wordLimit ∧ isSuppressed vocabulary w 2 = false ∧
      ∃ b ∈ w.find? 2, b.form = basicShowLeds.name ∧
        b.fields.find? "MATRIX" = some (.string matrix) := by
    decide +kernel
  obtain ⟨hroom, hactive, b, hb, hform, hfield⟩ := h
  obtain ⟨hw, -⟩ := consistent_run consistent_empty source (room_empty hroom)
  have huses : ∀ command ∈ source, command.Uses vocabulary := by simp [source, Command.Uses]
  have hshows : w.ShowsMatrix 2 matrix :=
    hw.showsMatrix_iff.2 ⟨⟨b, hb, hform, hfield⟩, hactive⟩
  exact ⟨hshows, readAs_writtenMatrix source hroom huses hshows⟩

end ScriptBlocks.Workspace
