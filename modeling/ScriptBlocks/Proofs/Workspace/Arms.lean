import ScriptBlocks.Proofs.Dialect.Bodies
import ScriptBlocks.Proofs.Workspace.Formed

/-!
# The arms of a conditional

A conditional is made with one arm. Further ones come as slots whose numbers are found by looking
through the slots that are there, among which the slot for the last body stands wherever it was
declared. If nothing but these operations declares slots on a conditional, then the slots other than
that one are those of the arms, in the order of their numbers, and the numbers have no gaps.

## Main definitions

* `Block.HasArms` — the slots of a block are those of so many arms
* `Workspace.OnlyArms` — a run declares no other slots on a block
* `Workspace.armNumbers`, `Workspace.lastAdded` — the arms that a run adds to a block

## Main statements

* `Block.HasArms.contains_iff` — the names of the slots
* `Workspace.addElseIf_of_hasArms`, `Workspace.arms_of_hasArms` — numbers and the count of arms
* `Workspace.hasArms_of_apply`, `Workspace.hasArms_of_run` — each command keeps to arms, and so do runs
* `Workspace.hasArms_of_run_of_lt` — the arms of a block that a run creates
-/

namespace ScriptBlocks

open Dialect

/-! ### The names of the slots -/

namespace Dialect

variable {i j : Nat}

theorem bodySlot_inj : bodySlot i = bodySlot j ↔ i = j := by
  refine ⟨fun h => ?_, congrArg _⟩
  have hnumber : toString i = toString j := by
    have htext := congrArg String.toList h
    simp only [bodySlot, String.toList_append] at htext
    exact String.toList_inj.1 (List.append_cancel_left htext)
  exact conditionSlot_inj.1 (congrArg ("IF" ++ ·) hnumber)

theorem conditionSlot_ne_bodySlot (i j : Nat) : conditionSlot i ≠ bodySlot j := by
  intro h
  have hfirst := congrArg (fun s => s.toList.head?) h
  simp [conditionSlot, bodySlot] at hfirst

theorem conditionSlot_ne_elseSlot (i : Nat) : conditionSlot i ≠ elseSlot := by
  intro h
  have hfirst := congrArg (fun s => s.toList.head?) h
  simp [conditionSlot, elseSlot] at hfirst

theorem bodySlot_ne_elseSlot (i : Nat) : bodySlot i ≠ elseSlot := by
  intro h
  have hfirst := congrArg (fun s => s.toList.head?) h
  simp [bodySlot, elseSlot] at hfirst

/-- The slots of the arm with that number, holding nothing. -/
def armSlots (i : Nat) : List (String × Slot) :=
  [(conditionSlot i, .value (some .boolean) none), (bodySlot i, .statement none)]

theorem mem_map_armSlots {k : Nat} {name : String} :
    name ∈ ((List.range (k + 1)).flatMap armSlots).map Prod.fst ↔
      ∃ i ≤ k, name = conditionSlot i ∨ name = bodySlot i := by
  rw [List.map_flatMap, List.mem_flatMap]
  simp only [List.mem_range, Nat.lt_succ_iff, armSlots, List.map_cons, List.map_nil, List.mem_cons,
    List.not_mem_nil, or_false]

end Dialect

/-! ### Blocks with arms -/

@[simp] theorem Slot.isStatement_hold (occupant : Option BlockId) (s : Slot) :
    (s.hold occupant).isStatement = s.isStatement := by
  cases s <;> rfl

/-- Apart from the slot for the last body, which the block has just if `last` is true, its slots are
those of the first arm and of `k` further ones, in the order of their numbers. -/
structure Block.HasArms (b : Block) (k : Nat) (last : Bool) : Prop where
  arms : b.emptySlots.entries.filter (fun e => e.1 ≠ elseSlot) =
    (List.range (k + 1)).flatMap armSlots
  last : b.emptySlots.find? elseSlot = if last then some (.statement none) else none

namespace Block

variable {b b' : Block} {k : Nat} {last : Bool} {name : String} {s : Slot}

theorem contains_emptySlots (b : Block) (name : String) :
    b.emptySlots.contains name = b.slots.contains name := by
  rw [Bool.eq_iff_iff, OrderedMap.contains_iff, OrderedMap.contains_iff, emptySlots,
    OrderedMap.keys_mapValues]

/-- The block with one more slot, unless it has one of that name. -/
def declare (b : Block) (name : String) (s : Slot) : Block :=
  { b with slots := b.slots.insertNew name s }

theorem declare_of_contains (h : b.slots.contains name = true) : b.declare name s = b := by
  rw [declare, OrderedMap.insertNew, dif_pos h]

theorem contains_declare {x : String} :
    (b.declare name s).slots.contains x = true ↔ x = name ∨ b.slots.contains x = true := by
  rw [declare, ← OrderedMap.find?_isSome, ← OrderedMap.find?_isSome, OrderedMap.find?_insertNew]
  by_cases hx : x = name <;> simp [hx]

/-- A new slot comes last. -/
theorem entries_declare (hempty : s.hold none = s) (h : ¬ b.slots.contains name = true) :
    (b.declare name s).emptySlots.entries = b.emptySlots.entries ++ [(name, s)] := by
  rw [emptySlots, declare, OrderedMap.insertNew, dif_neg h]
  simp [OrderedMap.mapValues, OrderedMap.push, emptySlots, hempty]

theorem HasArms.of_sameFrame (h : b.HasArms k last) (hsame : b.SameFrame b') :
    b'.HasArms k last where
  arms := hsame.emptySlots ▸ h.arms
  last := hsame.emptySlots ▸ h.last

/-- A new conditional has its first arm. -/
theorem hasArms_of_framedBy (h : b.FramedBy controlsIf) : b.HasArms 0 false := by
  obtain ⟨id, fields, hframe⟩ := h
  have hentries : b.emptySlots.entries = armSlots 0 := by
    rw [hframe.emptySlots]
    change ((OrderedMap.ofList (controlsIf.template.args.filterMap Slot.ofArg?)).mapValues
      fun _ => Slot.hold none).entries = _
    decide
  constructor
  · rw [hentries]
    decide
  · rw [OrderedMap.find?, hentries]
    decide

namespace HasArms

variable (h : b.HasArms k last)
include h

theorem contains_elseSlot : b.slots.contains elseSlot = last := by
  rw [← contains_emptySlots, ← OrderedMap.find?_isSome, h.last]
  cases last <;> rfl

/-- The block has just the slots of its arms. -/
theorem contains_iff : b.slots.contains name = true ↔
    (∃ i ≤ k, name = conditionSlot i ∨ name = bodySlot i) ∨ last = true ∧ name = elseSlot := by
  by_cases helse : name = elseSlot
  · subst helse
    have hnone : ¬ ∃ i ≤ k, elseSlot = conditionSlot i ∨ elseSlot = bodySlot i := by
      rintro ⟨i, -, heq | heq⟩
      · exact conditionSlot_ne_elseSlot i heq.symm
      · exact bodySlot_ne_elseSlot i heq.symm
    rw [h.contains_elseSlot]
    simp [hnone]
  · rw [← contains_emptySlots, OrderedMap.contains_iff, ← mem_map_armSlots, ← h.arms]
    simp [OrderedMap.keys, helse]

theorem contains_conditionSlot_iff {i : Nat} : b.slots.contains (conditionSlot i) = true ↔ i ≤ k := by
  rw [h.contains_iff]
  constructor
  · rintro (⟨j, hj, heq | heq⟩ | ⟨-, heq⟩)
    · exact conditionSlot_inj.1 heq ▸ hj
    · exact absurd heq (conditionSlot_ne_bodySlot i j)
    · exact absurd heq (conditionSlot_ne_elseSlot i)
  · exact fun hi => .inl ⟨i, hi, .inl rfl⟩

theorem contains_bodySlot_iff {i : Nat} : b.slots.contains (bodySlot i) = true ↔ i ≤ k := by
  rw [h.contains_iff]
  constructor
  · rintro (⟨j, hj, heq | heq⟩ | ⟨-, heq⟩)
    · exact absurd heq.symm (conditionSlot_ne_bodySlot j i)
    · exact bodySlot_inj.1 heq ▸ hj
    · exact absurd heq (bodySlot_ne_elseSlot i)
  · exact fun hi => .inl ⟨i, hi, .inr rfl⟩

/-- The slots for statements are those for the bodies. -/
theorem exists_statement_iff : (∃ head, b.slots.find? name = some (.statement head)) ↔
    (∃ i ≤ k, name = bodySlot i) ∨ last = true ∧ name = elseSlot := by
  have hempty : (∃ head, b.slots.find? name = some (.statement head)) ↔
      b.emptySlots.find? name = some (.statement none) := by
    rw [emptySlots, OrderedMap.find?_mapValues]
    cases b.slots.find? name with
    | none => simp
    | some s => cases s <;> simp [Slot.hold]
  rw [hempty]
  by_cases helse : name = elseSlot
  · subst helse
    have hnone : ¬ ∃ i ≤ k, elseSlot = bodySlot i := by
      rintro ⟨i, -, heq⟩
      exact bodySlot_ne_elseSlot i heq.symm
    rw [h.last]
    simp [hnone]
  · have hmem : b.emptySlots.find? name = some (.statement none) ↔
        (name, .statement none) ∈ (List.range (k + 1)).flatMap armSlots := by
      rw [OrderedMap.find?_eq_some_iff, ← h.arms, List.mem_filter]
      simp [helse]
    rw [hmem]
    simp only [List.mem_flatMap, List.mem_range, Nat.lt_succ_iff, armSlots, List.mem_cons,
      Prod.mk.injEq, reduceCtorEq, and_false, and_true, false_or, List.not_mem_nil, or_false, helse]

/-- The conditions are numbered without gaps. -/
theorem furtherArms : FurtherArms b.slots.contains k := by
  refine ⟨fun i hi => h.contains_conditionSlot_iff.2 hi, ?_⟩
  rw [← Bool.not_eq_true, h.contains_conditionSlot_iff]
  exact Nat.not_succ_le_self k

/-- A further arm takes the next number. -/
theorem addArm : ((b.declare (conditionSlot (k + 1)) (.value (some .boolean) none)).declare
    (bodySlot (k + 1)) (.statement none)).HasArms (k + 1) last := by
  have hcondition : ¬ b.slots.contains (conditionSlot (k + 1)) = true := by
    rw [h.contains_conditionSlot_iff]
    exact Nat.not_succ_le_self k
  have hbody : ¬ (b.declare (conditionSlot (k + 1)) (.value (some .boolean) none)).slots.contains
      (bodySlot (k + 1)) = true := by
    rw [contains_declare, h.contains_bodySlot_iff]
    rintro (heq | hle)
    · exact conditionSlot_ne_bodySlot _ _ heq.symm
    · exact Nat.not_succ_le_self k hle
  have hentries := entries_declare (s := .statement none) rfl hbody
  rw [entries_declare rfl hcondition] at hentries
  constructor
  · rw [hentries, List.filter_append, List.filter_append, h.arms, List.range_succ (n := k + 1),
      List.flatMap_append]
    simp [armSlots, conditionSlot_ne_elseSlot, bodySlot_ne_elseSlot]
  · rw [← h.last, OrderedMap.find?, OrderedMap.find?, hentries]
    simp [List.find?_append, conditionSlot_ne_elseSlot, bodySlot_ne_elseSlot]

/-- The arm without a condition is there afterwards, whether it was before or not. -/
theorem addElse : (b.declare elseSlot (.statement none)).HasArms k true := by
  cases hlast : last with
  | true =>
    rw [declare_of_contains (h.contains_elseSlot.trans hlast), ← hlast]
    exact h
  | false =>
    have hnone : ¬ b.slots.contains elseSlot = true := by
      rw [h.contains_elseSlot, hlast]
      decide
    have hentries := entries_declare (s := .statement none) rfl hnone
    have hfind : b.emptySlots.entries.find? (fun e => e.1 = elseSlot) = none := by
      have hfind := h.last
      rwa [hlast, OrderedMap.find?, if_neg Bool.false_ne_true, Option.map_eq_none_iff] at hfind
    constructor
    · rw [hentries, ← h.arms]
      simp
    · rw [OrderedMap.find?, hentries, List.find?_append, hfind]
      simp

end HasArms

end Block

/-! ### Arms in a workspace -/

/-- The command declares a slot of any name on the block. -/
def Command.DeclaresOn (id : BlockId) : Command → Prop
  | .addValueSlot x .. | .addStatementSlot x _ => x = id
  | _ => False

namespace Workspace

variable {w w' : Workspace} {id : BlockId} {b b' : Block} {k : Nat} {last : Bool}
  {command : Command}

theorem find?_of_addSlot {name : String} {s : Slot} (hb : w.find? id = some b) :
    ∃ w', w.addSlot id name s = .ok w' ∧ w'.find? id = some (b.declare name s) := by
  refine ⟨_, edit_eq_ok.2 ⟨contains_of_find? hb, rfl⟩, ?_⟩
  rw [find?_modify, if_pos rfl, hb]
  rfl

/-- The first number that is free is found. -/
theorem freeArm_eq {fuel n m : Nat} (hle : n ≤ m)
    (hpresent : ∀ i, n ≤ i → i < m → b.slots.contains (conditionSlot i) = true)
    (habsent : ¬ b.slots.contains (conditionSlot m) = true) (hfuel : m ≤ n + fuel) :
    freeArm b fuel n = m := by
  induction fuel generalizing n with
  | zero => exact Nat.le_antisymm hle hfuel
  | succ fuel ih =>
    rw [freeArm]
    by_cases heq : n = m
    · rw [heq, if_neg habsent]
    · have hlt : n < m := Nat.lt_of_le_of_ne hle heq
      rw [if_pos (hpresent n (Nat.le_refl n) hlt)]
      exact ih hlt (fun i hi => hpresent i (Nat.le_of_succ_le hi)) (by omega)

/-- A further arm gets the next number, and the block has it then. -/
theorem addElseIf_of_hasArms (hb : w.find? id = some b) (h : b.HasArms k last) :
    ∃ w' b', w.addElseIf id = .ok (k + 1, w') ∧ w'.find? id = some b' ∧
      b'.HasArms (k + 1) last := by
  have hfuel : k + 1 ≤ b.slots.size :=
    le_size_of_conditionSlot fun i hi =>
      h.contains_conditionSlot_iff.2 (Nat.le_of_lt_succ hi)
  have hfree : freeArm b b.slots.size 1 = k + 1 := by
    refine freeArm_eq (Nat.le_add_left 1 k) (fun i _ hi => ?_) ?_ (by omega)
    · exact h.contains_conditionSlot_iff.2 (Nat.le_of_lt_succ hi)
    · rw [h.contains_conditionSlot_iff]
      exact Nat.not_succ_le_self k
  obtain ⟨w₁, hvalue, hb₁⟩ := find?_of_addSlot hb
  obtain ⟨w₂, hstatement, hb₂⟩ := find?_of_addSlot hb₁
  refine ⟨w₂, _, ?_, hb₂, h.addArm⟩
  simp only [addElseIf, get_of_find? hb, bind_eq_ok, pure_eq_ok]
  exact ⟨b, rfl, w₁, hfree ▸ hvalue, w₂, hfree ▸ hstatement, by rw [hfree]⟩

theorem addElse_of_hasArms (hb : w.find? id = some b) (h : b.HasArms k last) :
    ∃ w' b', w.addElse id = .ok w' ∧ w'.find? id = some b' ∧ b'.HasArms k true := by
  obtain ⟨w', hadd, hb'⟩ := find?_of_addSlot hb
  exact ⟨w', _, hadd, hb', h.addElse⟩

/-- The arms of a block are counted right. -/
theorem arms_of_hasArms (hb : w.find? id = some b) (h : b.HasArms k last) :
    w.arms id = .ok (k + 1, last) := by
  let isCondition (e : String × Slot) : Bool :=
    "IF".toList.isPrefixOf e.1.toList && !e.2.isStatement
  have hempty : (b.emptySlots.entries.filter isCondition).length =
      (b.slots.entries.filter isCondition).length := by
    simp [Block.emptySlots, OrderedMap.mapValues, List.filter_map, Function.comp_def, isCondition]
  have hrest : b.emptySlots.entries.filter isCondition =
      (b.emptySlots.entries.filter fun e => e.1 ≠ elseSlot).filter isCondition := by
    rw [List.filter_filter]
    refine List.filter_congr fun e _ => ?_
    by_cases helse : e.1 = elseSlot
    · simp [isCondition, helse, elseSlot]
    · simp [helse]
  have hfirst (i : Nat) : (armSlots i).filter isCondition =
      [(conditionSlot i, .value (some .boolean) none)] := by
    simp [armSlots, isCondition, conditionSlot, bodySlot, Slot.isStatement]
  have hcount : (b.slots.entries.filter isCondition).length = k + 1 := by
    rw [← hempty, hrest, h.arms, List.filter_flatMap]
    simp [hfirst]
  simp only [arms, get_of_find? hb, bind_eq_ok, pure_eq_ok]
  refine ⟨b, rfl, ?_⟩
  rw [h.contains_elseSlot, ← hcount]

/-! ### Arms in a run -/

/-- The number of the arm that the command adds to the block, if it adds one. -/
def armNumber? (w : Workspace) (id : BlockId) : Command → Option Nat
  | .addElseIf x => if x = id then (w.addElseIf id).toOption.map Prod.fst else none
  | _ => none

/-- Whether the command adds the last body to the block, or finds it there. -/
def addsLast (w : Workspace) (id : BlockId) : Command → Bool
  | .addElse x => x = id && w.contains id
  | _ => false

/-- The numbers of the arms that a run adds to the block, in the order of their addition. -/
def armNumbers (id : BlockId) : Workspace → List Command → List Nat
  | _, [] => []
  | w, command :: commands =>
    (w.armNumber? id command).toList ++ armNumbers id (w.apply command) commands

/-- Whether a run adds the last body to the block. -/
def lastAdded (id : BlockId) : Workspace → List Command → Bool
  | _, [] => false
  | w, command :: commands => w.addsLast id command || lastAdded id (w.apply command) commands

/-- The slots that a run adds to the block are those of arms. -/
def OnlyArms (id : BlockId) : Workspace → List Command → Prop
  | _, [] => True
  | w, command :: commands =>
    (command.DeclaresOn id → w.apply command = w) ∧ OnlyArms id (w.apply command) commands

/-- A command that declares no slots on the block adds no arms to it. -/
theorem noArm_of_slotOwner? (h : command.slotOwner? ≠ some id) :
    w.armNumber? id command = none ∧ w.addsLast id command = false := by
  cases command with
  | addElseIf x => exact ⟨if_neg fun heq => h (congrArg some heq), rfl⟩
  | addElse x =>
    have hne : x ≠ id := fun heq => h (congrArg some heq)
    exact ⟨rfl, by simp [addsLast, hne]⟩
  | _ => exact ⟨rfl, rfl⟩

/-- No arms are added to a block that is not there. -/
theorem noArm_of_find?_eq_none (h : w.find? id = none) (command : Command) :
    w.armNumber? id command = none ∧ w.addsLast id command = false := by
  cases command with
  | addElseIf x =>
    refine ⟨?_, rfl⟩
    rw [armNumber?, addElseIf, get_of_find?_none h]
    exact ite_self none
  | addElse x =>
    have hcontains : w.contains id = false := Bool.not_eq_true _ ▸ find?_eq_none_iff.1 h
    exact ⟨rfl, by simp [addsLast, hcontains]⟩
  | _ => exact ⟨rfl, rfl⟩

section

variable (hw : w.Consistent)
include hw

/-- A block with arms has arms after the command, and if there is a further one it has the next
number. -/
theorem hasArms_of_apply (hroom : w.Room (w.creationsOf command))
    (honly : command.DeclaresOn id → w.apply command = w) (hb : w.find? id = some b)
    (h : b.HasArms k last) (hb' : (w.apply command).find? id = some b') :
    (w.armNumber? id command = none ∨ w.armNumber? id command = some (k + 1)) ∧
      b'.HasArms (k + (w.armNumber? id command).toList.length) (last || w.addsLast id command) := by
  by_cases hslot : command.slotOwner? = some id
  · cases command with
    | addValueSlot | addStatementSlot =>
      obtain rfl := Option.some.inj hslot
      rw [honly rfl, hb] at hb'
      obtain rfl := Option.some.inj hb'
      exact ⟨.inl rfl, by simpa [addsLast, armNumber?] using h⟩
    | addElseIf x =>
      obtain rfl : x = id := Option.some.inj hslot
      obtain ⟨w₁, b₁, hadd, hb₁, h₁⟩ := addElseIf_of_hasArms hb h
      rw [apply, hadd] at hb'
      obtain rfl := Option.some.inj (hb₁.symm.trans hb')
      have hnumber : w.armNumber? x (.addElseIf x) = some (k + 1) := by
        rw [armNumber?, if_pos rfl, hadd]
        rfl
      exact ⟨.inr hnumber, by simpa [addsLast, hnumber] using h₁⟩
    | addElse x =>
      obtain rfl : x = id := Option.some.inj hslot
      obtain ⟨w₁, b₁, hadd, hb₁, h₁⟩ := addElse_of_hasArms hb h
      rw [apply, hadd] at hb'
      obtain rfl := Option.some.inj (hb₁.symm.trans hb')
      have hlast : w.addsLast x (.addElse x) = true := by
        rw [addsLast, contains_of_find? hb, decide_eq_true rfl]
        rfl
      rw [hlast, Bool.or_true]
      exact ⟨.inl rfl, h₁⟩
    | _ => cases hslot
  · obtain ⟨b₀, hb₀, -, -, hframe⟩ :=
      exists_of_apply hw hroom (hw.le_lastId (contains_of_find? hb)) hb'
    obtain rfl := Option.some.inj (hb.symm.trans hb₀)
    obtain ⟨hnumber, hlast⟩ := noArm_of_slotOwner? (w := w) hslot
    rw [hnumber, hlast, Bool.or_false]
    exact ⟨.inl rfl, h.of_sameFrame (hframe hslot)⟩

/-- The arms that a run adds to a block get numbers in a row. -/
theorem hasArms_of_run {commands : List Command} (hroom : w.Room (w.creations commands))
    (honly : OnlyArms id w commands) (hb : w.find? id = some b) (h : b.HasArms k last)
    (hb' : (w.run commands).find? id = some b') :
    armNumbers id w commands = List.range' (k + 1) (armNumbers id w commands).length ∧
      b'.HasArms (k + (armNumbers id w commands).length) (last || lastAdded id w commands) := by
  induction commands generalizing w b k last with
  | nil =>
    obtain rfl := Option.some.inj (hb.symm.trans hb')
    rw [lastAdded, Bool.or_false]
    exact ⟨rfl, h⟩
  | cons command commands ih =>
    rw [creations] at hroom
    obtain ⟨hw₁, hspends⟩ := hw.apply command hroom.left
    have hroom₁ := hroom.of_spends hspends
    have hid : id ≤ (w.apply command).lastId := by
      rw [hspends]
      exact Nat.le_add_right_of_le (hw.le_lastId (contains_of_find? hb))
    -- the block is there at the end, so it is there in between
    obtain ⟨b₁, hb₁, -⟩ := exists_of_run hw₁ hroom₁ hid hb'
    obtain ⟨hnumber, h₁⟩ := hasArms_of_apply hw hroom.left honly.1 hb h hb₁
    obtain ⟨hnumbers, h'⟩ := ih hw₁ hroom₁ honly.2 hb₁ h₁ hb'
    rw [armNumbers, lastAdded, List.length_append, ← Nat.add_assoc, ← Bool.or_assoc]
    refine ⟨?_, h'⟩
    rcases hnumber with hnumber | hnumber
    · rw [hnumber] at hnumbers ⊢
      simpa using hnumbers
    · rw [hnumber] at hnumbers ⊢
      rw [Option.toList_some, List.singleton_append, List.length_singleton, Nat.add_comm 1,
        List.range'_succ]
      exact congrArg _ hnumbers

/-- The arms that a run adds to a conditional, if the run makes it as well. -/
theorem hasArms_of_run_of_lt {commands : List Command} (hroom : w.Room (w.creations commands))
    (huses : ∀ command ∈ commands, command.Uses vocabulary) (honly : OnlyArms id w commands)
    (hid : w.lastId < id) (hb' : (w.run commands).find? id = some b')
    (hform : b'.form = controlsIf.name) :
    armNumbers id w commands = List.range' 1 (armNumbers id w commands).length ∧
      b'.HasArms (armNumbers id w commands).length (lastAdded id w commands) := by
  induction commands generalizing w with
  | nil => exact absurd hb' (by rw [run, List.foldl_nil, hw.find?_of_lastId_lt hid]; nofun)
  | cons command commands ih =>
    rw [creations] at hroom
    rw [List.forall_mem_cons] at huses
    obtain ⟨hw₁, hspends⟩ := hw.apply command hroom.left
    have hroom₁ := hroom.of_spends hspends
    obtain ⟨hnumber, hlast⟩ := noArm_of_find?_eq_none (hw.find?_of_lastId_lt hid) command
    rw [armNumbers, lastAdded, hnumber, hlast, Option.toList_none, List.nil_append, Bool.false_or]
    by_cases hid₁ : (w.apply command).lastId < id
    · exact ih hw₁ hroom₁ huses.2 honly.2 hid₁ hb'
    · obtain ⟨b₁, hb₁, hform₁, -⟩ := exists_of_run hw₁ hroom₁ (Nat.not_lt.1 hid₁) hb'
      obtain ⟨form, hframed, hframe⟩ := framedBy_of_apply hw huses.1 hid hb₁
      obtain rfl : controlsIf = form := by
        rw [hform₁, hform] at hframed
        exact Option.some.inj hframed
      have harms := hasArms_of_run hw₁ hroom₁ honly.2 hb₁ (Block.hasArms_of_framedBy hframe) hb'
      simpa only [Nat.zero_add, Bool.false_or] using harms

end

end Workspace

end ScriptBlocks
