import ScriptBlocks.Proofs.Dialect.Precedence
import ScriptBlocks.Proofs.Reading.Argument
import ScriptBlocks.Proofs.Run

/-!
# Reading a condition

The header of a conditional and an assignment are cut differently, the one at the first colon and
the other at the end of the line. Where both leave the same text, the workspaces read from them
differ in the block on top only.

## Main definitions

* `Workspace.Asks` — a block is a conditional with a given first condition

## Main statements

* `Workspace.readAs_condition` — a condition is read like the value of an assignment
* `Workspace.condition_cut_in_text` — a colon in a string literal ends the condition
-/

namespace ScriptBlocks.Workspace

open Dialect

variable {depth : Nat}

/-- The block `p` is a conditional whose first condition is the block `u`. -/
def Asks (w : Workspace) (p u : BlockId) : Prop :=
  ∃ b, w.find? p = some b ∧ b.form = controlsIf.name ∧
    b.slots.find? (conditionSlot 0) = some (.value (some .boolean) (some u))

instance (w : Workspace) (p u : BlockId) : Decidable (w.Asks p u) :=
  inferInstanceAs (Decidable (∃ b ∈ w.find? p, b.form = controlsIf.name ∧
    b.slots.find? (conditionSlot 0) = some (.value (some .boolean) (some u))))

theorem takesOne_controlsIf (text : String) :
    TakesOne controlsIf (fields [("IF0", .string text)]) "IF0" (some .boolean) text ∅ :=
  ⟨rfl, rfl, rfl, fun _ => rfl⟩

theorem readAs_assignment (w : Workspace) {name t : List Char} (hname : IsIdentifier name)
    (ht : ∀ c ∈ t, inLine c = true) :
    w.readAs vocabulary (.ofList (Setting.assign.line name t)) "variables_set" =
        (match construct vocabulary (attachArgument vocabulary (Setting.assign.line name t).length) w
          variablesSet (fields [("VAR", .string (.ofList name)),
            ("VALUE", .string (.ofList (Text.trim t)))]) with
        | (.ok id, w') => (.ok (some id), w')
        | (.error e, w') => (.error e, w')) ∧
      readAsCreations vocabulary w (.ofList (Setting.assign.line name t)) "variables_set" =
        constructCreations vocabulary
          (attachArgument vocabulary (Setting.assign.line name t).length)
          (attachArgumentCreations vocabulary (Setting.assign.line name t).length) w variablesSet
          (fields [("VAR", .string (.ofList name)), ("VALUE", .string (.ofList (Text.trim t)))]) := by
  obtain ⟨c, hmatch, -, hfields⟩ := Setting.assign.matchIn_line hname ht
  have hget : vocabulary.get "variables_set" = .ok variablesSet := rfl
  have hread := readAs_of_match (w := w) hget hmatch hfields
  rwa [String.length_ofList] at hread

/-- A header is longer than its condition, but no greater depth is needed than that of the
condition. -/
theorem readAs_header (w : Workspace) {condition : List Char} (hcolon : ':' ∉ condition)
    (hblank : Text.trim condition ≠ []) (z : List Char) (hdepth : condition.length ≤ depth) :
    w.readAs vocabulary (.ofList (header "if" (.ofList condition) ++ z)) "controls_if" =
      match construct vocabulary (attachArgument vocabulary depth) w controlsIf
        (fields [("IF0", .string (.ofList (Text.trim condition)))]) with
      | (.ok id, w') => (.ok (some id), w')
      | (.error e, w') => (.error e, w') := by
  obtain ⟨c, hmatch, -, hfields⟩ := matchIn_header hcolon z
  rw [if_neg hblank] at hfields
  have hget : vocabulary.get "controls_if" = .ok controlsIf := rfl
  have hheader : condition.length ≤ (header "if" (.ofList condition) ++ z).length := by
    rw [header_if_eq]
    simp only [List.length_append, List.length_cons]
    omega
  have hlength : (String.ofList (Text.trim condition)).length ≤ condition.length := by
    rw [String.length_ofList]
    exact Text.length_trim_le condition
  have htakes := takesOne_controlsIf (.ofList (Text.trim condition))
  have hread := (readAs_of_match (w := w) hget hmatch hfields).1
  rw [String.length_ofList, htakes.construct_congr htakes rfl (hlength.trans hheader)
    (hlength.trans hdepth)] at hread
  exact hread

/-- Whatever commands have made the workspace: if a text without a colon is assigned to a name, and
what is attached is an expression whose output is a truth value or not checked, then the text is
attached just so as the condition of a header, whatever follows the colon of the header. All blocks
but the one on top are the same, with the same ids. -/
theorem readAs_condition (commands : List Command) {name condition : List Char} {p u : BlockId}
    {w₁ : Workspace} {b : Block} {output : Option Capability} (hname : IsIdentifier name)
    (hline : ∀ c ∈ condition, inLine c = true) (hcolon : ':' ∉ condition) (z : List Char)
    (hroom : (∅ : Workspace).creations (commands ++
      [.readAs vocabulary (.ofList (Setting.assign.line name condition)) "variables_set"]) <
        wordLimit)
    (hread : ((∅ : Workspace).run commands).readAs vocabulary
      (.ofList (Setting.assign.line name condition)) "variables_set" = (.ok (some p), w₁))
    (hassigns : w₁.Assigns p (.ofList name) u) (hb : w₁.find? u = some b)
    (hshape : b.shape = .expression output) (houtput : output = none ∨ output = some .boolean) :
    ∃ w₂, ((∅ : Workspace).run commands).readAs vocabulary
        (.ofList (header "if" (.ofList condition) ++ z)) "controls_if" = (.ok (some p), w₂) ∧
      w₂.Asks p u ∧ ∀ x, x ≠ p → w₂.find? x = w₁.find? x := by
  obtain ⟨hw, hroom⟩ := ready_of_creations hroom
  generalize (∅ : Workspace).run commands = w at hw hroom hread ⊢
  obtain ⟨hassignment, hcreations⟩ := readAs_assignment w hname hline
  change w.Room (readAsCreations vocabulary w _ "variables_set") at hroom
  rw [hcreations] at hroom
  rw [hassignment] at hread
  have htakes : TakesOne variablesSet _ "VALUE" none (.ofList (Text.trim condition)) _ :=
    takesOne_setting .assign (.ofList name) (.ofList (Text.trim condition))
  obtain ⟨owner, howner, -, -, hslots⟩ := hassigns
  have hslot : owner.slots.find? "VALUE" = some (.value none (some u)) := by
    rw [OrderedMap.find?_eq_some_iff, hslots]
    exact List.mem_cons_self
  have hconstruct : construct vocabulary
      (attachArgument vocabulary (Setting.assign.line name condition).length) w variablesSet
        (fields [("VAR", .string (.ofList name)),
          ("VALUE", .string (.ofList (Text.trim condition)))]) = (.ok p, w₁) := by
    split at hread
    · next id w' hresult =>
      obtain ⟨hid, rfl⟩ := Prod.mk.inj hread
      obtain rfl : id = p := Option.some.inj (Except.ok.inj hid)
      exact hresult
    · exact nomatch congrArg Prod.fst hread
  -- what was attached is not blank, so neither is the condition
  obtain ⟨-, -, -, -, -, -, -, -, -, ⟨hbare, -⟩, -⟩ :=
    htakes.exists_of_construct hw hroom hconstruct howner hslot
  have hblank : Text.trim condition ≠ [] := by
    intro hblank
    rw [hblank] at hbare
    exact hbare rfl
  obtain ⟨w₂, hconstruct', hp, hsame⟩ := htakes.construct_other (takesOne_controlsIf _) hw hroom
    hconstruct howner hslot hb hshape (by rcases houtput with rfl | rfl <;> rfl)
  refine ⟨w₂, ?_, ⟨_, hp, rfl, rfl⟩, hsame⟩
  rw [readAs_header w hcolon hblank z (Setting.length_lt_line ..).le, hconstruct']

/-- A comparison is read as a condition. -/
theorem readAs_condition_of_comparison :
    let w₁ := ((∅ : Workspace).readAs vocabulary "y = x == 1" "variables_set").2
    w₁.Assigns 1 "y" 2 ∧
      ∃ w₂, (∅ : Workspace).readAs vocabulary "if x == 1:" "controls_if" = (.ok (some 1), w₂) ∧
        w₂.Asks 1 2 ∧ ∀ x, x ≠ 1 → w₂.find? x = w₁.find? x := by
  intro w₁
  have hname : IsIdentifier ['y'] := ⟨'y', [], rfl, by decide, nofun⟩
  have hroom : (∅ : Workspace).creations ([] ++
      [.readAs vocabulary "y = x == 1" "variables_set"]) < wordLimit :=
    creations_readAs_lt takesAtMost_vocabulary Nat.two_pos (by decide)
  have hread : (∅ : Workspace).readAs vocabulary "y = x == 1" "variables_set" = (.ok (some 1), w₁) :=
    Prod.ext (by decide +kernel) rfl
  have hassigns : w₁.Assigns 1 "y" 2 := by decide +kernel
  obtain ⟨b, hb, hshape⟩ : ∃ b ∈ w₁.find? 2, b.shape = .expression (some .boolean) := by
    decide +kernel
  have hline : ∀ c ∈ "x == 1".toList, inLine c = true := by decide
  exact ⟨hassigns,
    readAs_condition [] hname hline (by decide) [] hroom hread hassigns hb hshape (.inr rfl)⟩

/-- The colon is in a string literal, where an assignment leaves it: the header ends in the middle of
the literal, and the comparison has lost its second operand. -/
theorem condition_cut_in_text :
    let w₁ := ((∅ : Workspace).readAs vocabulary "y = x == \"a:b\"" "variables_set").2
    let w₂ := ((∅ : Workspace).readAs vocabulary "if x == \"a:b\":" "controls_if").2
    (w₁.Assigns 1 "y" 2 ∧ (w₁.find? 2).map Block.shape = some (.expression (some .boolean)) ∧
      (w₁.find? 2).bind (Block.valueChild · "B") = some 4 ∧
        (w₁.find? 4).map Block.fields = some (fields [("TEXT", "a:b")])) ∧
      w₂.Asks 1 2 ∧ (w₂.find? 2).bind (Block.valueChild · "B") = none := by
  decide +kernel

end ScriptBlocks.Workspace
