import Mathlib.Data.Nat.Find
import ScriptBlocks.Proofs.Dialect.Frame
import ScriptBlocks.Proofs.Text.Placement
import ScriptBlocks.Proofs.Writing.Conditional

/-!
# Where bodies stand

An entry point prints one body, and a conditional one for each of its arms. A body starts behind the
end of a line, which is that of the header of its arm or of the declaration in front of it.

## Main definitions

* `Dialect.FurtherArms` — the number of the further arms of a conditional
* `Dialect.PrintsBody` — the slots whose bodies are printed

## Main statements

* `Dialect.exists_writeConditional_eq` — the text of a conditional, arm by arm
* `Dialect.PrintsBody.standsIn` — a body that is printed starts where a line does
* `Dialect.isBlank_of_statement` — the text of a statement is not blank
-/

namespace ScriptBlocks

namespace Dialect

/-! ### The arms of a conditional -/

/-- The conditions with the numbers from one up to `n` have slots, and the next one has none. -/
def FurtherArms (has : String → Bool) (n : Nat) : Prop :=
  (∀ i < n, has (conditionSlot (i + 1)) = true) ∧ has (conditionSlot (n + 1)) = false

theorem FurtherArms.unique {has : String → Bool} {n m : Nat} (hn : FurtherArms has n)
    (hm : FurtherArms has m) : n = m := by
  rcases Nat.lt_trichotomy n m with hlt | rfl | hlt
  · exact absurd ((hm.1 n hlt).symm.trans hn.2) (by decide)
  · rfl
  · exact absurd ((hn.1 m hlt).symm.trans hm.2) (by decide)

variable (p : Parts)

/-- Conditions with numbers in a row do not outnumber the slots. -/
theorem le_size_of_hasSlot {n : Nat} (h : ∀ i < n, p.hasSlot (conditionSlot (i + 1)) = true) :
    n ≤ p.values.size + p.bodies.size := by
  have hnodup : ((List.range n).map fun i => conditionSlot (i + 1)).Nodup :=
    List.nodup_range.map fun i j heq => Nat.succ_injective (conditionSlot_inj.1 heq)
  have hsub : (List.range n).map (fun i => conditionSlot (i + 1)) ⊆
      p.values.keys ++ p.bodies.keys := by
    intro name hname
    obtain ⟨i, hi, rfl⟩ := List.mem_map.1 hname
    have hslot := h i (List.mem_range.1 hi)
    rw [Parts.hasSlot, Bool.or_eq_true, OrderedMap.contains_iff, OrderedMap.contains_iff] at hslot
    exact List.mem_append.2 hslot
  have hlength := (List.subperm_of_subset hnodup hsub).length_le
  rwa [List.length_map, List.length_range, List.length_append, OrderedMap.keys, OrderedMap.keys,
    List.length_map, List.length_map] at hlength

theorem exists_furtherArms : ∃ n ≤ p.values.size + p.bodies.size, FurtherArms p.hasSlot n := by
  have hex : ∃ n, p.hasSlot (conditionSlot (n + 1)) = false := by
    by_contra hnone
    simp only [not_exists, Bool.not_eq_false] at hnone
    have hle := le_size_of_hasSlot p fun i (_ : i < p.values.size + p.bodies.size + 1) => hnone i
    omega
  have hpresent i (hi : i < Nat.find hex) : p.hasSlot (conditionSlot (i + 1)) = true :=
    Bool.not_eq_false _ ▸ Nat.find_min hex hi
  exact ⟨Nat.find hex, le_size_of_hasSlot p hpresent, hpresent, Nat.find_spec hex⟩

/-- Arms are printed as long as there is a slot for the next condition. -/
theorem furtherArms_eq_join {fuel n m : Nat}
    (hpresent : ∀ i < n, p.hasSlot (conditionSlot (m + i)) = true)
    (habsent : p.hasSlot (conditionSlot (m + n)) = false) (hfuel : n ≤ fuel) :
    furtherArms p fuel m =
      String.join ((List.range n).map fun i => arm p "elif" (m + i) "False") := by
  induction n generalizing fuel m with
  | zero =>
    cases fuel with
    | zero => rfl
    | succ fuel =>
      rw [furtherArms, if_neg (by rw [← Nat.add_zero m, habsent]; decide)]
      rfl
  | succ n ih =>
    obtain ⟨fuel, rfl⟩ := Nat.exists_eq_add_one_of_ne_zero (Nat.ne_zero_of_lt hfuel)
    have hshift (i : Nat) : m + (i + 1) = m + 1 + i := by omega
    have hfirst : p.hasSlot (conditionSlot m) = true := hpresent 0 (Nat.succ_pos n)
    have hrest : furtherArms p fuel (m + 1) = _ := ih
      (fun i hi => hshift i ▸ hpresent (i + 1) (Nat.succ_lt_succ hi)) (hshift n ▸ habsent)
      (Nat.le_of_succ_le_succ hfuel)
    rw [furtherArms, if_pos hfirst, hrest, List.range_succ_eq_map, List.map_cons, List.map_map,
      String.join_cons]
    simp only [Function.comp_def, Nat.succ_eq_add_one, ← hshift, Nat.add_zero]

/-- The first arm of a conditional and `n` further ones. -/
def armsText (n : Nat) : String :=
  arm p "if" 0 "True" ++ String.join ((List.range n).map fun i => arm p "elif" (i + 1) "False")

/-- The arm for the case that no condition holds, if it is there. -/
def lastArm : String := if p.hasSlot elseSlot then "else:\n" ++ p.body elseSlot else ""

/-- A conditional is printed arm by arm. -/
theorem exists_writeConditional_eq :
    ∃ n, FurtherArms p.hasSlot n ∧ writeConditional p = armsText p n ++ lastArm p := by
  obtain ⟨n, hfuel, hn⟩ := exists_furtherArms p
  refine ⟨n, hn, ?_⟩
  have hshift (i : Nat) : 1 + i = i + 1 := Nat.add_comm 1 i
  rw [writeConditional, furtherArms_eq_join p (n := n) (fun i hi => hshift i ▸ hn.1 i hi)
    (hshift n ▸ hn.2) hfuel]
  simp only [hshift]
  rfl

/-! ### Bodies -/

/-- The form of a block prints the body in a slot: an entry point prints its only one, a conditional
that of the first arm, of the further ones, and of the last one if it is there. -/
inductive PrintsBody (b : Block) : Form → String → Prop where
  | entry {form : Form} (hcontainer : form.isContainer = true) : PrintsBody b form "DO"
  | arm {n i : Nat} (hn : FurtherArms b.slots.contains n) (hi : i ≤ n) :
    PrintsBody b controlsIf (bodySlot i)
  | last (h : b.slots.contains elseSlot = true) : PrintsBody b controlsIf elseSlot

variable {p} {b : Block} {form : Form} {slot text : String}

theorem standsIn_arm (p : Parts) (before after word default : String) (n : Nat) :
    StandsIn (p.body (bodySlot n)) (before ++ arm p word n default ++ after) := by
  refine ⟨before ++ (word ++ " " ++ p.value (conditionSlot n) .loosest default ++ ":\n"), after,
    .inr (.append _ (.append _ rfl)), ?_⟩
  rw [arm]
  simp only [String.append_assoc]

/-- A body that is printed starts behind the end of a line. -/
theorem PrintsBody.standsIn (h : PrintsBody b form slot) (hform : form ∈ forms)
    (hslots : ∀ slot, p.hasSlot slot = b.slots.contains slot) {fragment : Fragment}
    (hwrite : form.write p = .ok fragment) : StandsIn (p.body slot) fragment.code := by
  cases h with
  | entry hcontainer =>
    obtain ⟨name, closing, -, hframe⟩ := exists_frames hform hcontainer p.fields
    obtain rfl := Except.ok.inj (hwrite.symm.trans (hframe p rfl))
    refine ⟨"def " ++ name ++ "():\n" ++ p.globalsLine, closing, .inr ?_, rfl⟩
    rw [Parts.globalsLine]
    split
    · rw [String.append_empty]
      exact .append _ rfl
    · exact .append _ (.append _ rfl)
  | @arm n i hn hi =>
    -- the slots of the block are those of its parts, so the arms that are printed are its arms
    obtain ⟨m, hm, htext⟩ := exists_writeConditional_eq p
    obtain rfl : n = m := hn.unique (funext hslots ▸ hm)
    obtain rfl := Except.ok.inj hwrite
    change StandsIn _ (writeConditional p)
    rw [htext, armsText]
    cases i with
    | zero =>
      have hfirst := standsIn_arm p ""
        (String.join ((List.range n).map fun i => Dialect.arm p "elif" (i + 1) "False") ++
          lastArm p) "if" "True" 0
      rwa [String.empty_append, ← String.append_assoc] at hfirst
    | succ i =>
      have hmem : Dialect.arm p "elif" (i + 1) "False" ∈
          (List.range n).map fun i => Dialect.arm p "elif" (i + 1) "False" :=
        List.mem_map.2 ⟨i, List.mem_range.2 hi, rfl⟩
      obtain ⟨l, r, hsplit⟩ := List.append_of_mem hmem
      have hfurther := standsIn_arm p (Dialect.arm p "if" 0 "True" ++ String.join l)
        (String.join r ++ lastArm p) "elif" "False" (i + 1)
      rw [hsplit, String.join_append, String.join_cons]
      simpa only [String.append_assoc] using hfurther
  | last hlast =>
    obtain ⟨n, -, htext⟩ := exists_writeConditional_eq p
    obtain rfl := Except.ok.inj hwrite
    change StandsIn _ (writeConditional p)
    rw [htext, lastArm, if_pos ((hslots _).trans hlast)]
    refine ⟨armsText p n ++ "else:\n", "", .inr (.append _ rfl), ?_⟩
    rw [String.append_empty, String.append_assoc]

/-! ### Blank texts -/

theorem isBlank_drawIcon (name : String) : Text.isBlank (drawIcon name).toList = false := by
  rw [drawIcon, Text.isBlank_join, List.all_eq_false]
  refine ⟨atLight "led.unplot" 0 0, ?_, by decide⟩
  refine List.mem_append_left _ (List.mem_flatMap.2 ⟨0, List.mem_range.2 (by decide), ?_⟩)
  exact List.mem_map.2 ⟨0, List.mem_range.2 (by decide), rfl⟩

theorem isBlank_ringTone (frequency : String) :
    Text.isBlank (ringTone frequency).toList = false := by
  change Text.isBlank ("music.ring_tone(" ++ frequency ++ ")\n").toList = false
  simp only [Text.isBlank_toList_append, Bool.and_eq_false_iff]
  exact .inl (.inl (by decide))

/-- There is something other than white space in the text of a statement. -/
theorem isBlank_of_statement (hform : form ∈ forms)
    (hshape : form.template.shape.isExpression = false)
    (hwrite : form.write p = .ok (.statement text)) : Text.isBlank text.toList = false := by
  rcases statement_form_cases hform hshape with rfl | rfl | rfl | rfl | hmem | hmem
  · obtain rfl := Fragment.statement.inj (Except.ok.inj hwrite)
    exact isBlank_drawIcon _
  · obtain rfl := Fragment.statement.inj (Except.ok.inj hwrite)
    simp only [writeConditional, arm, Text.isBlank_toList_append, Bool.and_eq_false_iff]
    repeat apply Or.inl
    decide
  · rcases ite_eq_iff.1 hwrite with ⟨-, h⟩ | ⟨-, h⟩
    · obtain rfl := Fragment.statement.inj (Except.ok.inj h)
      exact isBlank_ringTone _
    · obtain rfl := Fragment.statement.inj (Except.ok.inj h)
      simp only [Text.isBlank_toList_append, Bool.and_eq_false_iff]
      exact .inl (.inl (.inl (.inl (by decide))))
  · obtain rfl := Fragment.statement.inj (Except.ok.inj hwrite)
    exact isBlank_ringTone _
  · -- the name of a variable may be blank, but what is done to it is written behind it
    simp only [List.mem_cons, List.not_mem_nil, or_false] at hmem
    rcases hmem with rfl | rfl
    all_goals
      obtain rfl := Fragment.statement.inj (Except.ok.inj hwrite)
      simp only [Text.isBlank_toList_append, Bool.and_eq_false_iff]
      exact .inl (.inl (.inr (by decide)))
  · -- each other text starts with a word
    simp only [List.mem_cons, List.not_mem_nil, or_false] at hmem
    rcases hmem with rfl | rfl | rfl | rfl | rfl | rfl | rfl | rfl | rfl | rfl | rfl | rfl | rfl | rfl
    all_goals
      obtain rfl := Fragment.statement.inj (Except.ok.inj hwrite)
      simp only [function, coordinateCall, Text.isBlank_toList_append, Bool.and_eq_false_iff]
      repeat apply Or.inl
      decide

end Dialect

end ScriptBlocks
