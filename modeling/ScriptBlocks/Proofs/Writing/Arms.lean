import ScriptBlocks.Proofs.Workspace.Arms
import ScriptBlocks.Proofs.Workspace.Place
import ScriptBlocks.Proofs.Writing.Layout

/-!
# Arm by arm

The arms of a conditional are looked for in three ways: the first number that is free is that of the
next arm, the names of the slots are counted, and the text goes from number to number as long as there
is a slot. On a block whose slots are those of arms the three agree, so that each arm that was added is
numbered, counted and printed.

## Main definitions

* `Workspace.valueText` — the text of the expression in a slot, or what stands for it

## Main statements

* `Workspace.value_of_parts` — a form is given the text of the expression in a slot
* `Workspace.arms_agree` — numbers, count and text of the arms that a run adds
-/

namespace ScriptBlocks

open Dialect Layout

namespace Workspace

/-- The text of the expression in a slot, or `default` if there is none or its text is empty. -/
def valueText (v : Vocabulary) (o : WritingOptions) (w : Workspace) (default : String) :
    Option BlockId → Except Error String
  | none => .ok default
  | some child => do
    let code ← write v o w child
    return if code = "" then default else code

/-- The text of the statements in a slot, laid out as the body of a header. -/
def laidOutText (v : Vocabulary) (o : WritingOptions) (w : Workspace) (head : Option BlockId) :
    Except Error String := do
  let codes ← (w.statements head).mapM (write v o w)
  return block (indentLines (String.join codes) o.indent) o.indent o.emptyBody

variable {w : Workspace} {v : Vocabulary} {o : WritingOptions} {id : BlockId} {b : Block}
  {form : Form} {p : Parts}

theorem valueChild_eq_some_iff {slot : String} {child : BlockId} :
    b.valueChild slot = some child ↔
      ∃ check, (slot, .value check (some child)) ∈ b.slots.entries := by
  simp only [← OrderedMap.find?_eq_some_iff, Block.valueChild]
  constructor
  · intro h
    split at h
    · next check _ hfind => exact ⟨check, h ▸ hfind⟩
    · cases h
  · rintro ⟨check, hfind⟩
    rw [hfind]

/-- A form that takes an expression as it is is given its text. -/
theorem value_of_parts (h : w.parts v o (render v o w) form b id = .ok p) (slot default : String) :
    w.valueText v o default (b.valueChild slot) = .ok (p.value slot .loosest default) := by
  obtain ⟨hgathers, -⟩ := gathers_of_parts h
  cases hchild : b.valueChild slot with
  | none =>
    rw [valueText, Parts.value]
    split
    · next hfind =>
      obtain ⟨check, child, hmem, -⟩ := hgathers.value hfind
      cases hchild.symm.trans (valueChild_eq_some_iff.2 ⟨check, hmem⟩)
    · rfl
  | some child =>
    obtain ⟨check, hmem⟩ := valueChild_eq_some_iff.1 hchild
    obtain ⟨⟨code, precedence⟩, hoperand, hfind⟩ := hgathers.operand hmem
    have hwrite : write v o w child = .ok code := by
      rw [write, exists_of_operand hoperand]
      rfl
    have hloosest : ¬ precedence < .loosest := UInt8.not_lt_zero
    simp only [valueText, hwrite, Parts.value, hfind, if_neg hloosest]
    rfl

section

variable (hw : w.Consistent) (hf : w.FormedBy vocabulary)
include hw hf

theorem laidOutText_of_parts (hb : w.find? id = some b)
    (h : w.parts vocabulary o (render vocabulary o w) form b id = .ok p) (slot : String) :
    w.laidOutText vocabulary o (b.statementHead slot) = .ok (p.body slot) := by
  obtain ⟨code, hcode, hbody⟩ := body_of_parts h slot
  obtain ⟨codes, hcodes, rfl⟩ := exists_codes hw hf hb hcode
  rw [laidOutText, hcodes, hbody]
  rfl

/-- The text of a conditional whose slots are those of arms. -/
theorem write_of_hasArms (hb : w.find? id = some b) (hform : b.form = controlsIf.name) {k : Nat}
    {last : Bool} (h : b.HasArms k last) (hactive : isSuppressed vocabulary w id = false) :
    ∃ conditions bodies : Nat → String, ∃ lastBody : String,
      (∀ i, w.valueText vocabulary o (if i = 0 then "True" else "False")
        (b.valueChild (conditionSlot i)) = .ok (conditions i)) ∧
      (∀ i, w.laidOutText vocabulary o (b.statementHead (bodySlot i)) = .ok (bodies i)) ∧
      w.laidOutText vocabulary o (b.statementHead elseSlot) = .ok lastBody ∧
      write vocabulary o w id = .ok ("if " ++ conditions 0 ++ ":\n" ++ bodies 0 ++
        String.join ((List.range k).map fun i =>
          "elif " ++ conditions (i + 1) ++ ":\n" ++ bodies (i + 1)) ++
        if last then "else:\n" ++ lastBody else "") := by
  have hfind : vocabulary.find? b.form = some controlsIf := hform ▸ rfl
  obtain ⟨p, hparts, hrender⟩ :=
    exists_parts_of_isSuppressed_eq_false hw hf (o := o) hb hfind hactive
  have hslots : p.hasSlot = b.slots.contains := funext (hasSlot_of_parts hparts)
  obtain ⟨n, hn, htext⟩ := exists_writeConditional_eq p
  -- the text stops at the first number without a slot, and that is where the arms end
  obtain rfl : n = k := (hslots ▸ hn).unique h.furtherArms
  refine ⟨fun i => p.value (conditionSlot i) .loosest (if i = 0 then "True" else "False"),
    fun i => p.body (bodySlot i), p.body elseSlot, fun i => value_of_parts hparts _ _,
    fun i => laidOutText_of_parts hw hf hb hparts _, laidOutText_of_parts hw hf hb hparts _, ?_⟩
  rw [lastArm, hslots, h.contains_elseSlot] at htext
  rw [write, hrender]
  exact congrArg Except.ok htext

end

/-- On a conditional that gets slots from no operations but those for arms, the arms are numbered in
the order of their addition, whatever else happens in between. They are counted right, each statement
that is attached to the block is in one of their bodies, and their texts follow one another by their
numbers, the one without a condition at the end. -/
theorem arms_agree (commands : List Command)
    (hroom : (∅ : Workspace).creations commands < wordLimit)
    (huses : ∀ command ∈ commands, command.Uses vocabulary)
    (hb : ((∅ : Workspace).run commands).find? id = some b) (hform : b.form = controlsIf.name)
    (honly : OnlyArms id ∅ commands) :
    let w := (∅ : Workspace).run commands
    let numbers := armNumbers id ∅ commands
    let k := numbers.length
    let last := lastAdded id ∅ commands
    numbers = List.range' 1 k ∧ (∃ w', w.addElseIf id = .ok (k + 1, w')) ∧
    w.arms id = .ok (k + 1, last) ∧
    (∀ slot head, b.slots.find? slot = some (.statement (some head)) →
      ((∃! i, i ≤ k ∧ slot = bodySlot i) ∨ last = true ∧ slot = elseSlot) ∧
      ∀ slot', b.slots.find? slot' = some (.statement (some head)) → slot' = slot) ∧
    ∀ o, isSuppressed vocabulary w id = false →
      ∃ conditions bodies : Nat → String, ∃ lastBody : String,
        (∀ i, w.valueText vocabulary o (if i = 0 then "True" else "False")
          (b.valueChild (conditionSlot i)) = .ok (conditions i)) ∧
        (∀ i, w.laidOutText vocabulary o (b.statementHead (bodySlot i)) = .ok (bodies i)) ∧
        w.laidOutText vocabulary o (b.statementHead elseSlot) = .ok lastBody ∧
        write vocabulary o w id = .ok ("if " ++ conditions 0 ++ ":\n" ++ bodies 0 ++
          String.join ((List.range k).map fun i =>
            "elif " ++ conditions (i + 1) ++ ":\n" ++ bodies (i + 1)) ++
          if last then "else:\n" ++ lastBody else "") := by
  intro w numbers k last
  obtain ⟨hw, -⟩ := consistent_run consistent_empty commands (room_empty hroom)
  have hf : w.FormedBy vocabulary := formedBy_run huses
  have hid : (∅ : Workspace).lastId < id := by
    by_contra hzero
    obtain ⟨_, hb₀, -⟩ := exists_of_run consistent_empty (room_empty hroom) (Nat.not_lt.1 hzero) hb
    exact nomatch hb₀
  obtain ⟨hnumbers, h⟩ :=
    hasArms_of_run_of_lt consistent_empty (room_empty hroom) huses honly hid hb hform
  obtain ⟨w', -, hadd, -⟩ := addElseIf_of_hasArms hb h
  refine ⟨hnumbers, ⟨w', hadd⟩, arms_of_hasArms hb h,
    fun slot head hslot => ⟨?_, fun slot' hslot' => ?_⟩,
    fun o hactive => write_of_hasArms hw hf hb hform h hactive⟩
  · refine (h.exists_statement_iff.1 ⟨_, hslot⟩).imp_left ?_
    rintro ⟨i, hi, rfl⟩
    exact ⟨i, ⟨hi, rfl⟩, fun j hj => (bodySlot_inj.1 hj.2).symm⟩
  · have hplace := Block.place_unique (hw.nodup_children_of_find? hb)
      (Block.occupant_slot hslot) (Block.occupant_slot hslot')
    exact (Place.slot.inj hplace).symm

/-- The last body is declared between two arms, the first arm stays empty, and the statement of the last
body is taken out again. An arm for a block that is not there yet counts for nothing. -/
theorem arms_agree_of_session :
    let commands : List Command :=
      [.create vocabulary "forever" ∅, .addElseIf 2, .create vocabulary "controls_if" ∅,
        .addElseIf 2, .addElse 2,
        .create vocabulary "logic_boolean" (.ofList [("BOOL", .string "TRUE")]),
        .addElseIf 2, .connectStatement 1 "DO" 2, .connectValue 2 "IF1" 3,
        .create vocabulary "pause" (.ofList [("TIME", .int 5)]), .create vocabulary "pause" ∅,
        .connectStatement 2 "DO1" 4, .connectStatement 2 "ELSE" 5, .disconnect 5, .addElse 2,
        .remove 5]
    let w := (∅ : Workspace).run commands
    (∅ : Workspace).creations commands < wordLimit ∧
      (∀ command ∈ commands, command.Uses vocabulary) ∧ OnlyArms 2 ∅ commands ∧
      armNumbers 2 ∅ commands = [1, 2] ∧ (∃ w', w.addElseIf 2 = .ok (3, w')) ∧
      w.arms 2 = .ok (3, true) ∧
      write vocabulary {} w 2 = .ok ("if True:\n    pass\nelif True:\n    basic.pause(5)\n" ++
        "elif False:\n    pass\nelse:\n    pass\n") := by
  intro commands w
  have h : (∅ : Workspace).creations commands < wordLimit ∧ isSuppressed vocabulary w 2 = false ∧
      (armNumbers 2 ∅ commands).length = 2 ∧ lastAdded 2 ∅ commands = true ∧
      ∃ b ∈ w.find? 2, b.form = "controls_if" ∧
        w.valueText vocabulary {} "True" (b.valueChild (conditionSlot 0)) = .ok "True" ∧
        w.valueText vocabulary {} "False" (b.valueChild (conditionSlot 1)) = .ok "True" ∧
        w.valueText vocabulary {} "False" (b.valueChild (conditionSlot 2)) = .ok "False" ∧
        w.laidOutText vocabulary {} (b.statementHead (bodySlot 0)) = .ok "    pass\n" ∧
        w.laidOutText vocabulary {} (b.statementHead (bodySlot 1)) = .ok "    basic.pause(5)\n" ∧
        w.laidOutText vocabulary {} (b.statementHead (bodySlot 2)) = .ok "    pass\n" ∧
        w.laidOutText vocabulary {} (b.statementHead elseSlot) = .ok "    pass\n" := by
    decide +kernel
  obtain ⟨hroom, hactive, hlength, hlast, b, hb, hform, h0, h1, h2, hb0, hb1, hb2, hbl⟩ := h
  have huses : ∀ command ∈ commands, command.Uses vocabulary := by simp [commands, Command.Uses]
  have honly : OnlyArms 2 ∅ commands := by simp [commands, OnlyArms, Command.DeclaresOn]
  obtain ⟨hnumbers, hadd, harms, -, hwrite⟩ := arms_agree commands hroom huses hb hform honly
  obtain ⟨conditions, bodies, lastBody, hconditions, hbodies, hlastBody, htext⟩ := hwrite {} hactive
  rw [hlength] at hnumbers hadd harms htext
  rw [hlast] at harms htext
  refine ⟨hroom, huses, honly, hnumbers, hadd, harms, ?_⟩
  rw [htext, ← Except.ok.inj (h0.symm.trans (hconditions 0)),
    ← Except.ok.inj (hb0.symm.trans (hbodies 0)), ← Except.ok.inj (hbl.symm.trans hlastBody)]
  have harm1 := Except.ok.inj (h1.symm.trans (hconditions 1))
  have harm2 := Except.ok.inj (h2.symm.trans (hconditions 2))
  have hbody1 := Except.ok.inj (hb1.symm.trans (hbodies 1))
  have hbody2 := Except.ok.inj (hb2.symm.trans (hbodies 2))
  have hfurther : (List.range 2).map (fun i =>
      "elif " ++ conditions (i + 1) ++ ":\n" ++ bodies (i + 1)) =
        ["elif True:\n    basic.pause(5)\n", "elif False:\n    pass\n"] := by
    change ["elif " ++ conditions 1 ++ ":\n" ++ bodies 1,
      "elif " ++ conditions 2 ++ ":\n" ++ bodies 2] = _
    rw [← harm1, ← harm2, ← hbody1, ← hbody2]
    decide
  rw [hfurther]
  decide

end Workspace

end ScriptBlocks
