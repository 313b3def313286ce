import ScriptBlocks.Proofs.Dialect.Lines
import ScriptBlocks.Proofs.Writing.Refusal

/-!
# The sections of a text

With the built-in forms everything is written. The text of a statement is made up of complete lines,
possibly none, and so is that of a chain; the text of an expression is an expression. The text of a
workspace has a section for each root, in the order of their creation, with an empty line between
them, and leaves out the roots whose text is blank.

## Main definitions

* `Fragment.Fits` — a text goes by the shape of its block
* `Workspace.IsRootText` — the text of a root

## Main statements

* `Workspace.exists_render_fits` — each block is written by its shape
* `Workspace.writeAll_eq_of_isRootText` — the text of a workspace from the texts of its roots
* `Workspace.writeAll_eq_intercalate` — both, for workspaces of built-in forms
-/

namespace ScriptBlocks

open Dialect

/-- The text goes by the shape: complete lines, possibly none, or an expression. -/
def Fragment.Fits : Fragment → Shape → Prop
  | .statement code, .statement .. => code = "" ∨ EndsLine code
  | .expression .., .expression _ => True
  | _, _ => False

theorem Fragment.Fits.asLines {fragment : Fragment} {shape : Shape} (h : fragment.Fits shape) :
    fragment.asLines = "" ∨ EndsLine fragment.asLines := by
  cases fragment with
  | expression code => exact .inr (.append code rfl)
  | statement code =>
    cases shape with
    | statement => exact h
    | expression => exact h.elim

theorem Dialect.writesByShape : vocabulary.WritesByShape := by
  intro form hform p
  cases hshape : form.template.shape.isExpression with
  | true =>
    obtain ⟨code, precedence, hwrite⟩ := exists_write_of_expression hform hshape p
    exact ⟨_, hwrite, rfl⟩
  | false =>
    obtain ⟨code, hwrite, -⟩ := exists_write_of_statement hform hshape p
    exact ⟨_, hwrite, rfl⟩

namespace Workspace

/-- The text of a root: that of the chain that starts there, or a line with the expression. -/
def IsRootText (v : Vocabulary) (o : WritingOptions) (w : Workspace) (root : BlockId)
    (text : String) : Prop :=
  ∃ b, w.find? root = some b ∧
    match b.shape with
    | .statement .. => writeChain v o w root = .ok text
    | .expression _ => ∃ code, write v o w root = .ok code ∧ text = code ++ "\n"

variable {w : Workspace} {v : Vocabulary} {o : WritingOptions} {id root : BlockId} {b : Block}
  {text : String}

/-! ### The text of a workspace -/

/-- An expression without text would be a blank line. -/
theorem section?_of_isRootText (h : w.IsRootText v o root text) : w.section? v o root =
    .ok (if Text.isBlank text.toList then none else some text) := by
  obtain ⟨b, hb, htext⟩ := h
  cases hshape : b.shape with
  | statement =>
    rw [hshape] at htext
    rw [section?, writeRoot, get_of_find? hb]
    simp only [bind, Except.bind, hshape, htext]
    rfl
  | expression =>
    rw [hshape] at htext
    obtain ⟨code, hwrite, rfl⟩ := htext
    rw [section?, writeRoot, get_of_find? hb]
    simp only [bind, Except.bind, hshape, hwrite, pure, Except.pure]
    by_cases hempty : code = ""
    · subst hempty
      rfl
    · rw [if_neg hempty]

theorem writeAll_eq_of_isRootText {texts : List String}
    (h : List.Forall₂ (w.IsRootText v o) w.roots texts) :
    writeAll v o w = .ok ("\n".intercalate (texts.filter fun t => !Text.isBlank t.toList)) := by
  have hsections : w.roots.mapM (section? v o w) =
      .ok (texts.map fun t => if Text.isBlank t.toList then none else some t) :=
    mapM_eq_ok_iff.2 (List.forall₂_map_right_iff.2 (h.imp fun _ _ => section?_of_isRootText))
  have hfilter : (texts.map fun t => if Text.isBlank t.toList then none else some t).filterMap
      (fun t => t) = texts.filter fun t => !Text.isBlank t.toList := by
    rw [List.filterMap_map, ← List.filterMap_eq_filter]
    refine List.filterMap_congr fun t _ => ?_
    cases hblank : Text.isBlank t.toList <;> simp [Option.guard, hblank]
  rw [writeAll, hsections]
  exact congrArg (fun l => Except.ok ("\n".intercalate l)) hfilter

/-! ### Built-in forms -/

section

variable (hw : w.Consistent) (hf : w.FormedBy vocabulary)
include hw hf

theorem exists_render_fits (hb : w.find? id = some b) :
    ∃ fragment, render vocabulary o w id = .ok fragment ∧ fragment.Fits b.shape := by
  obtain ⟨fragment, hrender⟩ := (hf.exists_render_iff hw writesByShape (o := o)
    (contains_of_find? hb)).2 (not_stuck hw hf (fun _ => isExpression_of_gated) id)
  refine ⟨fragment, hrender, ?_⟩
  obtain ⟨form, hform, hshape⟩ := hf hb
  have hmem : form ∈ forms := List.mem_of_find?_eq_some hform
  by_cases hsilent : w.IsSilent vocabulary id
  · -- only statements are silent
    rw [render_of_isSilent hw hsilent] at hrender
    obtain rfl := Except.ok.inj hrender
    have hstatement := isExpression_of_gated hmem (hsilent.gated hb hform)
    rw [← hshape] at hstatement
    cases hb : b.shape with
    | statement => exact .inl rfl
    | expression => exact nomatch (hb ▸ hstatement :)
  · rw [render_of_not_isSilent hw hb hform hsilent, bind_eq_ok] at hrender
    obtain ⟨p, -, hwrite⟩ := hrender
    rw [hshape]
    cases hexpression : form.template.shape with
    | statement =>
      obtain ⟨code, hcode, hline⟩ := exists_write_of_statement hmem (by rw [hexpression]; rfl) p
      obtain rfl := Except.ok.inj (hwrite.symm.trans hcode)
      exact .inr hline
    | expression =>
      obtain ⟨code, precedence, hcode⟩ := exists_write_of_expression hmem (by rw [hexpression]; rfl) p
      obtain rfl := Except.ok.inj (hwrite.symm.trans hcode)
      trivial

/-- The text of a chain is made up of complete lines. -/
theorem exists_writeChain_eq (head : BlockId) :
    ∃ text, writeChain vocabulary o w head = .ok text ∧ (text = "" ∨ EndsLine text) := by
  obtain ⟨fragments, hfragments⟩ := exists_mapM_eq_ok_iff.2 fun x (hx : x ∈ w.chain head) => by
    obtain ⟨b, hb⟩ := contains_iff_find?.1 (hw.contains_of_mem_chain hx)
    obtain ⟨fragment, hrender, -⟩ := exists_render_fits hw hf (o := o) hb
    exact ⟨fragment, hrender⟩
  refine ⟨String.join (fragments.map Fragment.asLines), ?_, EndsLine.join fun s hs => ?_⟩
  · rw [writeChain, chainText, hfragments]
    rfl
  · obtain ⟨fragment, hfragment, rfl⟩ := List.mem_map.1 hs
    obtain ⟨x, hx, hrender⟩ := exists_of_mem_mapM hfragments hfragment
    obtain ⟨b, hb⟩ := contains_iff_find?.1 (hw.contains_of_mem_chain hx)
    obtain ⟨fragment', hrender', hfits⟩ := exists_render_fits hw hf (o := o) hb
    obtain rfl := Except.ok.inj (hrender.symm.trans hrender')
    exact hfits.asLines

/-- A root has a text, which is made up of complete lines. -/
theorem exists_isRootText (hb : w.find? root = some b) :
    ∃ text, w.IsRootText vocabulary o root text ∧ (text = "" ∨ EndsLine text) := by
  cases hshape : b.shape with
  | statement =>
    obtain ⟨text, htext, hlines⟩ := exists_writeChain_eq hw hf (o := o) root
    exact ⟨text, ⟨b, hb, by rw [hshape]; exact htext⟩, hlines⟩
  | expression =>
    obtain ⟨fragment, hrender, -⟩ := exists_render_fits hw hf (o := o) hb
    refine ⟨fragment.code ++ "\n", ⟨b, hb, ?_⟩, .inr (.append _ rfl)⟩
    rw [hshape]
    exact ⟨_, by rw [write, hrender]; rfl, rfl⟩

end

/-- With the built-in forms every block is written, by its shape, whatever its fields and wherever it
is. The text of the workspace consists of the texts of its roots, in the order of their creation and
with an empty line between them; those that are blank are left out, the others end a line. -/
theorem writeAll_eq_intercalate (commands : List Command)
    (hroom : (∅ : Workspace).creations commands < wordLimit)
    (huses : ∀ command ∈ commands, command.Uses vocabulary) (o : WritingOptions) :
    let w := (∅ : Workspace).run commands
    (∀ id b, w.find? id = some b → ∃ fragment, render vocabulary o w id = .ok fragment ∧
      write vocabulary o w id = .ok fragment.code ∧ fragment.Fits b.shape) ∧
    ∃ texts, List.Forall₂ (w.IsRootText vocabulary o) w.roots texts ∧
      writeAll vocabulary o w =
        .ok ("\n".intercalate (texts.filter fun t => !Text.isBlank t.toList)) ∧
      ∀ text ∈ texts.filter fun t => !Text.isBlank t.toList, EndsLine text := by
  intro w
  obtain ⟨hw, -⟩ := consistent_run consistent_empty commands (room_empty hroom)
  have hf : w.FormedBy vocabulary := formedBy_run huses
  refine ⟨fun id b hb => ?_, ?_⟩
  · obtain ⟨fragment, hrender, hfits⟩ := exists_render_fits hw hf (o := o) hb
    exact ⟨fragment, hrender, by rw [write, hrender]; rfl, hfits⟩
  · have htext root (hroot : root ∈ w.roots) : ∃ text, w.IsRootText vocabulary o root text ∧
        (text = "" ∨ EndsLine text) := by
      obtain ⟨b, hb, -⟩ := hw.exists_find?_of_mem_roots hroot
      exact exists_isRootText hw hf hb
    choose! textOf htextOf using htext
    have hroots : List.Forall₂ (w.IsRootText vocabulary o) w.roots (w.roots.map textOf) :=
      List.forall₂_map_right_iff.2 (List.forall₂_same.2 fun root hroot => (htextOf root hroot).1)
    refine ⟨_, hroots, writeAll_eq_of_isRootText hroots, fun text htext => ?_⟩
    obtain ⟨hmem, hblank⟩ := List.mem_filter.1 htext
    obtain ⟨root, hroot, rfl⟩ := List.mem_map.1 hmem
    refine (htextOf root hroot).2.resolve_left fun hempty => ?_
    rw [hempty] at hblank
    exact Bool.false_ne_true hblank

/-- A handler with two statements, a number beside it, and a pause that is beneath no entry point. -/
theorem writeAll_of_three_roots :
    let commands : List Command :=
      [.readDocument {} vocabulary "x = 1\nx += 2", .create vocabulary "on_start" ∅,
        .connectStatement 5 "DO" 1, .create vocabulary "math_number" (.ofList [("NUM", .int 7)]),
        .create vocabulary "pause" ∅, .setField 7 "TIME" (.bool true)]
    let w := (∅ : Workspace).run commands
    (∅ : Workspace).creations commands < wordLimit ∧
      (∀ command ∈ commands, command.Uses vocabulary) ∧ w.roots = [5, 6, 7] ∧
      ∃ texts, List.Forall₂ (w.IsRootText vocabulary {}) w.roots texts ∧
        "\n".intercalate (texts.filter fun t => !Text.isBlank t.toList) =
          "def on_start():\n    global x\n    x = 1\n    x += 2\n\non_start()\n\n7\n" := by
  intro commands w
  have h : (∅ : Workspace).creations commands < wordLimit ∧ w.roots = [5, 6, 7] ∧
      writeAll vocabulary {} w =
        .ok "def on_start():\n    global x\n    x = 1\n    x += 2\n\non_start()\n\n7\n" := by
    decide +kernel
  obtain ⟨hroom, hroots, hwrite⟩ := h
  have huses : ∀ command ∈ commands, command.Uses vocabulary := by simp [commands, Command.Uses]
  obtain ⟨-, texts, htexts, hall, -⟩ := writeAll_eq_intercalate commands hroom huses {}
  exact ⟨hroom, huses, hroots, texts, htexts, Except.ok.inj (hall.symm.trans hwrite)⟩

end Workspace

end ScriptBlocks
