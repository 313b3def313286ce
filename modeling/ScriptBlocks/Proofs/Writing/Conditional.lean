import ScriptBlocks.Proofs.Dialect.Conditional
import ScriptBlocks.Proofs.Text.Line
import ScriptBlocks.Proofs.Writing.Assignment

/-!
# Writing a conditional

The text of a conditional has a header and a body for each arm. Where all bodies are empty, each of
them is a placeholder, so the lines are determined by the conditions.

## Main definitions

* `Parts.Shows` — the parts that certain slots give
* `Dialect.conditionalLines` — the lines of a conditional with empty bodies
* `Workspace.IsShown` — a slot that holds no statement
* `Workspace.IsConditional` — a block is a conditional with empty bodies

## Main statements

* `Workspace.exists_parts_of_isShown` — the parts that the slots of a block give
* `Workspace.renderWithin_conditional` — the text of a conditional
-/

namespace ScriptBlocks

open Expression Dialect

/-! ### Parts -/

/-- What the text of a slot's expression is embedded as. -/
def operandOf (render : BlockId → Except Error Fragment) (child : BlockId) : Option Operand :=
  match render child with
  | .ok (.expression code precedence) => some ⟨code, precedence⟩
  | _ => none

/-- The parts have the expressions that the slots hold, and an empty body for each slot for
statements. -/
structure Parts.Shows (p : Parts) (render : BlockId → Except Error Fragment)
    (slots : List (String × Slot)) : Prop where
  value {name : String} {check : Option Capability} {child : Option BlockId} :
    (name, .value check child) ∈ slots → p.values.find? name = some (child.bind (operandOf render))
  body {name : String} {head : Option BlockId} :
    (name, .statement head) ∈ slots → p.bodies.find? name = some ""
  absent {name : String} : name ∉ slots.map Prod.fst →
    p.values.find? name = none ∧ p.bodies.find? name = none
  blank {name code : String} : p.bodies.find? name = some code → code = ""

namespace Parts.Shows

variable {p : Parts} {render : BlockId → Except Error Fragment} {slots : List (String × Slot)}
  {name : String}

theorem start (render : BlockId → Except Error Fragment) (fields : Fields) (o : WritingOptions) :
    Shows { fields, options := o } render [] where
  value h := absurd h List.not_mem_nil
  body h := absurd h List.not_mem_nil
  absent _ := ⟨rfl, rfl⟩
  blank h := nomatch h

theorem ne_of_mem {slot : Slot} {name' : String} (hnew : name ∉ slots.map Prod.fst)
    (h : (name', slot) ∈ slots) : name' ≠ name := by
  rintro rfl
  exact hnew (List.mem_map_of_mem h)

theorem insert_value (h : p.Shows render slots) (hnew : name ∉ slots.map Prod.fst)
    {check : Option Capability} {child : Option BlockId} {operand : Option Operand}
    (hoperand : operand = child.bind (operandOf render)) :
    { p with values := p.values.insert name operand }.Shows render
      (slots ++ [(name, Slot.value check child)]) where
  value {name' check' child'} hmem := by
    rcases List.mem_append.1 hmem with hmem | hmem
    · exact (p.values.find?_insert_of_ne _ (ne_of_mem hnew hmem)).trans (h.value hmem)
    · obtain ⟨rfl, -, rfl⟩ : name' = name ∧ check' = check ∧ child' = child := by simpa using hmem
      rw [← hoperand]
      exact OrderedMap.find?_insert_self ..
  body {name' head} hmem := by
    rcases List.mem_append.1 hmem with hmem | hmem
    · exact h.body hmem
    · simp at hmem
  absent {name'} hmem := by
    rw [List.map_append, List.mem_append, not_or] at hmem
    have hne : name' ≠ name := fun h => hmem.2 (by simp [h])
    exact ⟨(p.values.find?_insert_of_ne _ hne).trans (h.absent hmem.1).1, (h.absent hmem.1).2⟩
  blank hcode := h.blank hcode

theorem insert_body (h : p.Shows render slots) (hnew : name ∉ slots.map Prod.fst) :
    { p with bodies := p.bodies.insert name (Layout.indentLines "" p.options.indent) }.Shows render
      (slots ++ [(name, Slot.statement none)]) where
  value {name' check' child'} hmem := by
    rcases List.mem_append.1 hmem with hmem | hmem
    · exact h.value hmem
    · simp at hmem
  body {name' head} hmem := by
    rcases List.mem_append.1 hmem with hmem | hmem
    · exact (p.bodies.find?_insert_of_ne _ (ne_of_mem hnew hmem)).trans (h.body hmem)
    · obtain ⟨rfl, -⟩ : name' = name ∧ head = none := by simpa using hmem
      exact OrderedMap.find?_insert_self ..
  absent {name'} hmem := by
    rw [List.map_append, List.mem_append, not_or] at hmem
    have hne : name' ≠ name := fun h => hmem.2 (by simp [h])
    exact ⟨(h.absent hmem.1).1, (p.bodies.find?_insert_of_ne _ hne).trans (h.absent hmem.1).2⟩
  blank {name' code} hcode := by
    simp only [OrderedMap.find?_insert] at hcode
    split at hcode
    · exact (Option.some.inj hcode).symm
    · exact h.blank hcode

theorem hasSlot_eq {m : OrderedMap String Slot} (h : p.Shows render m.entries) :
    p.hasSlot name = m.contains name := by
  rw [hasSlot, ← OrderedMap.find?_isSome, ← OrderedMap.find?_isSome]
  cases hm : m.contains name with
  | false =>
    have hnot : name ∉ m.entries.map Prod.fst := by
      intro hmem
      exact nomatch hm.symm.trans (OrderedMap.contains_iff.2 hmem)
    rw [(h.absent hnot).1, (h.absent hnot).2]
    rfl
  | true =>
    rw [← OrderedMap.find?_isSome, Option.isSome_iff_exists] at hm
    obtain ⟨_ | _, hslot⟩ := hm
    · rw [h.value (OrderedMap.find?_eq_some_iff.1 hslot)]
      rfl
    · rw [h.body (OrderedMap.find?_eq_some_iff.1 hslot)]
      exact Bool.or_true _

end Parts.Shows

/-- An empty body is replaced by the placeholder. -/
theorem Layout.block_empty (indent placeholder : String) :
    block "" indent placeholder = indent ++ placeholder ++ "\n" := by
  have hbreak : "\n".toList = ['\n'] := rfl
  apply String.toList_inj.1
  rw [block, String.toList_ofList, String.toList_empty, String.toList_append,
    String.toList_append, hbreak]
  rfl

namespace Workspace

variable {w : Workspace} {render : BlockId → Except Error Fragment} {p : Parts}
  {slots rest : List (String × Slot)}

/-- The slot holds no statement, and any expression in it has a text. -/
def IsShown (render : BlockId → Except Error Fragment) : Slot → Prop
  | .value _ child => ∀ x ∈ child, ∃ operand, operandOf render x = some operand
  | .statement head => head = none

theorem addSlotText_of_isShown {e : String × Slot} (h : p.Shows render slots)
    (hnew : e.1 ∉ slots.map Prod.fst) (he : IsShown render e.2) :
    ∃ p', w.addSlotText render p e = .ok p' ∧ p'.Shows render (slots ++ [e]) ∧
      p'.options = p.options := by
  obtain ⟨name, _ | _⟩ := e
  case value check child =>
    have hstep : w.addSlotText render p (name, .value check child) =
        .ok { p with values := p.values.insert name (child.bind (operandOf render)) } := by
      cases child with
      | none => rfl
      | some x =>
        obtain ⟨operand, hoperand⟩ := he x rfl
        rw [Option.bind_some, hoperand]
        simp only [operandOf] at hoperand
        split at hoperand
        · next code precedence hx =>
          rw [← Option.some.inj hoperand, addSlotText, Workspace.operand, hx]
          rfl
        · cases hoperand
    exact ⟨_, hstep, h.insert_value hnew rfl, rfl⟩
  case statement head =>
    obtain rfl : head = none := he
    exact ⟨_, rfl, h.insert_body hnew, rfl⟩

/-- The parts that the slots of a block give. -/
theorem foldlM_addSlotText (h : p.Shows render slots)
    (hnodup : ((slots ++ rest).map Prod.fst).Nodup) (hrest : ∀ e ∈ rest, IsShown render e.2) :
    ∃ p', rest.foldlM (w.addSlotText render) p = .ok p' ∧ p'.Shows render (slots ++ rest) ∧
      p'.options = p.options := by
  induction rest generalizing p slots with
  | nil => exact ⟨p, rfl, by rwa [List.append_nil], rfl⟩
  | cons e rest ih =>
    obtain ⟨he, hrest⟩ := List.forall_mem_cons.1 hrest
    have hnew : e.1 ∉ slots.map Prod.fst := by
      rw [List.map_append, List.map_cons, List.nodup_middle, List.nodup_cons] at hnodup
      exact fun hmem => hnodup.1 (List.mem_append_left _ hmem)
    rw [List.append_cons] at hnodup ⊢
    obtain ⟨p₁, hstep, hshows, hoptions⟩ := addSlotText_of_isShown (w := w) h hnew he
    obtain ⟨p', hfold, hshows', hoptions'⟩ := ih hshows hnodup hrest
    refine ⟨p', ?_, hshows', hoptions'.trans hoptions⟩
    rw [List.foldlM_cons, hstep]
    exact hfold

/-- The parts of a block all of whose slots are shown. -/
theorem exists_parts_of_isShown {v : Vocabulary} {o : WritingOptions} {form : Form} {b : Block}
    {id : BlockId} (hb : ∀ e ∈ b.slots.entries, IsShown render e.2) :
    ∃ p, w.parts v o render form b id = .ok p ∧ p.Shows render b.slots.entries ∧ p.options = o := by
  obtain ⟨p, hfold, hshows, hoptions⟩ :=
    foldlM_addSlotText (w := w) (.start render b.fields o) b.slots.nodup hb
  rw [Workspace.parts, hfold]
  exact ⟨_, rfl, ⟨hshows.value, hshows.body, hshows.absent, hshows.blank⟩, hoptions⟩

end Workspace

/-! ### Conditionals -/

namespace Dialect

/-- The line that stands for an empty body. -/
def placeholder : List Char := "    pass".toList

/-- The lines of a conditional with empty bodies: of its first arm, of the further ones, and of the
one without a condition if there is one. -/
def conditionalLines (first : Option Formula) (further : List (Option Formula)) (hasElse : Bool) :
    List (List Char) :=
  [header "if" (conditionCode "True" first), placeholder] ++
    (further.flatMap fun condition => [elifHeader condition, placeholder]) ++
      if hasElse then ["else:".toList, placeholder] else []

/-- The text of a conditional with empty bodies. -/
def conditionalText (first : Option Formula) (further : List (Option Formula)) (hasElse : Bool) :
    String :=
  .ofList (Text.ended (conditionalLines first further hasElse))

variable {p : Parts} {n : Nat}

theorem conditionSlot_inj {m : Nat} : conditionSlot n = conditionSlot m ↔ n = m := by
  refine ⟨fun h => ?_, congrArg _⟩
  have hdigits : Nat.toDigits 10 n = Nat.toDigits 10 m := by
    have htext := congrArg String.toList h
    simp only [conditionSlot, String.toList_append, toList_toString_nat] at htext
    exact List.append_cancel_left htext
  have hread := congrArg (Nat.ofDigitChars 10 · 0) hdigits
  simpa only [Nat.ofDigitChars_ten_toDigits] using hread

theorem arm_eq {word default code : String}
    (hvalue : p.value (conditionSlot n) .loosest default = code)
    (hbody : p.body (bodySlot n) = "    pass\n") :
    arm p word n default = .ofList (Text.ended [header word code, placeholder]) := by
  have hblank : " ".toList = [' '] := rfl
  have hbreak : ":\n".toList = [':', '\n'] := rfl
  have hpass : "    pass\n".toList = placeholder ++ ['\n'] := rfl
  apply String.toList_inj.1
  rw [arm, hvalue, hbody]
  simp only [String.toList_append, String.toList_ofList, Text.ended, header, List.flatMap_cons,
    List.flatMap_nil, hblank, hbreak, hpass, List.append_assoc, List.append_nil, List.cons_append,
    List.nil_append]

/-- The arms from a number on are written in their order, up to the first number without one. -/
theorem furtherArms_eq {further : List (Option Formula)} {fuel : Nat}
    (hfuel : further.length ≤ fuel)
    (harms : ∀ i condition, further[i]? = some condition →
      p.hasSlot (conditionSlot (n + i)) = true ∧
        p.value (conditionSlot (n + i)) .loosest "False" = conditionCode "False" condition)
    (hend : p.hasSlot (conditionSlot (n + further.length)) = false)
    (hbody : ∀ i, p.body (bodySlot i) = "    pass\n") :
    furtherArms p fuel n = .ofList (Text.ended
      (further.flatMap fun condition => [elifHeader condition, placeholder])) := by
  induction further generalizing n fuel with
  | nil =>
    cases fuel with
    | zero => rfl
    | succ fuel =>
      rw [furtherArms, if_neg]
      · rfl
      · rw [List.length_nil, Nat.add_zero] at hend
        simp [hend]
  | cons condition further ih =>
    obtain ⟨d, rfl⟩ := Nat.exists_eq_add_of_le' (Nat.le_trans (Nat.succ_pos _) hfuel)
    obtain ⟨hslot, hvalue⟩ := harms 0 condition rfl
    rw [Nat.add_zero] at hslot hvalue
    have hshift (i : Nat) : n + 1 + i = n + (i + 1) := by omega
    have hrest : furtherArms p d (n + 1) = .ofList (Text.ended
        (further.flatMap fun condition => [elifHeader condition, placeholder])) := by
      apply ih (Nat.le_of_succ_le_succ hfuel)
      · intro i c hc
        rw [hshift]
        exact harms (i + 1) c hc
      · rw [hshift]
        exact hend
    rw [furtherArms, if_pos hslot, arm_eq hvalue (hbody n), hrest]
    apply String.toList_inj.1
    simp [Text.ended, elifHeader]

/-- The text of a conditional is put together from its lines. -/
theorem writeConditional_eq {first : Option Formula} {further : List (Option Formula)}
    {hasElse : Bool}
    (hfirst : p.value (conditionSlot 0) .loosest "True" = conditionCode "True" first)
    (harms : ∀ i condition, further[i]? = some condition →
      p.hasSlot (conditionSlot (1 + i)) = true ∧
        p.value (conditionSlot (1 + i)) .loosest "False" = conditionCode "False" condition)
    (hend : p.hasSlot (conditionSlot (1 + further.length)) = false)
    (helse : p.hasSlot elseSlot = hasElse) (hbody : ∀ slot, p.body slot = "    pass\n")
    (hfuel : further.length ≤ p.values.size + p.bodies.size) :
    writeConditional p = conditionalText first further hasElse := by
  have hpass : "    pass\n".toList = placeholder ++ ['\n'] := rfl
  have hword : "else:\n".toList = "else:".toList ++ ['\n'] := rfl
  rw [writeConditional, arm_eq hfirst (hbody _),
    furtherArms_eq hfuel harms hend fun i => hbody (bodySlot i), helse, hbody]
  apply String.toList_inj.1
  cases hasElse with
  | false =>
    simp only [conditionalText, conditionalLines, String.toList_append, String.toList_ofList,
      Bool.false_eq_true, if_false, List.append_nil, Text.ended, List.flatMap_append,
      String.toList_empty]
  | true =>
    simp only [conditionalText, conditionalLines, String.toList_append, String.toList_ofList,
      if_true, Text.ended, List.flatMap_append, List.flatMap_cons, List.flatMap_nil, hpass, hword,
      List.append_nil, List.append_assoc]

end Dialect

namespace Workspace

variable {w : Workspace} {p : BlockId}

/-- The slot holds the condition, or nothing if there is none. -/
def HoldsCondition (w : Workspace) : Option Slot → Option Formula → Prop
  | some (.value _ none), none => True
  | some (.value _ (some x)), some f => Holds w.find? x f
  | _, _ => False

instance (w : Workspace) : (slot : Option Slot) → (condition : Option Formula) →
    Decidable (w.HoldsCondition slot condition)
  | some (.value _ none), none => isTrue trivial
  | some (.value _ (some x)), some f => inferInstanceAs (Decidable (Holds w.find? x f))
  | some (.value _ none), some _ | some (.value _ (some _)), none | some (.statement _), _
  | none, _ => isFalse (by simp [HoldsCondition])

/-- The block is a conditional with these conditions in its slots, and its bodies are empty. -/
def IsConditional (w : Workspace) (p : BlockId) (first : Option Formula)
    (further : List (Option Formula)) (hasElse : Bool) : Prop :=
  ∃ b, w.find? p = some b ∧ b.form = controlsIf.name ∧
    (∀ e ∈ (first :: further).zipIdx,
      w.HoldsCondition (b.slots.find? (conditionSlot e.2)) e.1) ∧
    b.slots.find? (conditionSlot (first :: further).length) = none ∧
    b.slots.contains elseSlot = hasElse ∧
    ∀ e ∈ b.slots.entries, e.2.occupant ≠ none →
      ∃ i, i < (first :: further).length ∧ e.1 = conditionSlot i

instance (w : Workspace) (p : BlockId) (first : Option Formula) (further : List (Option Formula))
    (hasElse : Bool) : Decidable (w.IsConditional p first further hasElse) :=
  inferInstanceAs (Decidable (∃ b ∈ w.find? p, b.form = controlsIf.name ∧
    (∀ e ∈ (first :: further).zipIdx,
      w.HoldsCondition (b.slots.find? (conditionSlot e.2)) e.1) ∧
    b.slots.find? (conditionSlot (first :: further).length) = none ∧
    b.slots.contains elseSlot = hasElse ∧
    ∀ e ∈ b.slots.entries, e.2.occupant ≠ none →
      ∃ i, i < (first :: further).length ∧ e.1 = conditionSlot i))

section Condition

variable {slots : OrderedMap String Slot} {render : BlockId → Except Error Fragment}
  {name : String} {condition : Option Formula}

/-- The text that a slot for a condition gives. -/
theorem value_of_holdsCondition {parts : Parts} (hparts : parts.Shows render slots.entries)
    (hrender : ∀ x f, condition = some f → Holds w.find? x f →
      render x = .ok (.expression f.code f.strength) ∧ f.code ≠ "")
    (h : w.HoldsCondition (slots.find? name) condition) (default : String) :
    parts.value name .loosest default = conditionCode default condition := by
  unfold HoldsCondition at h
  split at h
  · next check hslot =>
    have hvalue := hparts.value (OrderedMap.find?_eq_some_iff.1 hslot)
    rw [Parts.value, hvalue]
    rfl
  · next check x f hslot =>
    obtain ⟨hx, hne⟩ := hrender x f rfl h
    have hvalue := hparts.value (OrderedMap.find?_eq_some_iff.1 hslot)
    rw [Option.bind_some, operandOf, hx] at hvalue
    exact (Parts.value_eq hvalue hne).trans (Formula.wrap_loosest ..)
  · exact h.elim

theorem isShown_of_holdsCondition {slot : Slot}
    (hrender : ∀ x f, condition = some f → Holds w.find? x f →
      render x = .ok (.expression f.code f.strength) ∧ f.code ≠ "")
    (h : w.HoldsCondition (some slot) condition) : IsShown render slot := by
  unfold HoldsCondition at h
  split at h
  · next hslot =>
    obtain rfl := Option.some.inj hslot
    intro x hx
    exact nomatch hx
  · next x f hslot =>
    obtain rfl := Option.some.inj hslot
    intro y hy
    obtain rfl := Option.some.inj hy
    exact ⟨_, by rw [operandOf, (hrender x f rfl h).1]⟩
  · exact h.elim

theorem contains_values_of_holdsCondition {parts : Parts}
    (hparts : parts.Shows render slots.entries)
    (h : w.HoldsCondition (slots.find? name) condition) : parts.values.contains name = true := by
  unfold HoldsCondition at h
  split at h
  · next hslot =>
    rw [← OrderedMap.find?_isSome, hparts.value (OrderedMap.find?_eq_some_iff.1 hslot)]
    rfl
  · next hslot =>
    rw [← OrderedMap.find?_isSome, hparts.value (OrderedMap.find?_eq_some_iff.1 hslot)]
    rfl
  · exact h.elim

theorem contains_of_holdsCondition (h : w.HoldsCondition (slots.find? name) condition) :
    slots.contains name = true := by
  rw [← OrderedMap.find?_isSome]
  cases hslot : slots.find? name with
  | none =>
    rw [hslot] at h
    exact h.elim
  | some _ => rfl

end Condition

/-- A slot that holds nothing is shown as such. -/
theorem isShown_of_occupant_eq_none {render : BlockId → Except Error Fragment} {slot : Slot}
    (h : slot.occupant = none) : IsShown render slot := by
  cases slot with
  | value check child =>
    intro x hx
    exact nomatch h.symm.trans hx
  | statement head => exact h

/-- A map that has all of the numbered slots is no smaller than their number. -/
theorem le_size_of_conditionSlot {α : Type} {m : OrderedMap String α} {n : Nat}
    (h : ∀ i < n, m.contains (conditionSlot i) = true) : n ≤ m.size := by
  have hnodup : ((List.range n).map conditionSlot).Nodup :=
    List.nodup_range.map fun _ _ heq => conditionSlot_inj.1 heq
  have hsub : (List.range n).map conditionSlot ⊆ m.keys := by
    intro name hname
    obtain ⟨i, hi, rfl⟩ := List.mem_map.1 hname
    exact OrderedMap.contains_iff.1 (h i (List.mem_range.1 hi))
  have hlength := (List.subperm_of_subset hnodup hsub).length_le
  rwa [List.length_map, List.length_range, OrderedMap.keys, List.length_map] at hlength

/-- Read with enough depth, a conditional with empty bodies gives its text. -/
theorem renderWithin_conditional {depth : Nat} {first : Option Formula}
    {further : List (Option Formula)} {hasElse : Bool}
    (h : w.IsConditional p first further hasElse) (hloud : isSuppressed vocabulary w p = false)
    (hrender : ∀ x f, some f ∈ first :: further → Holds w.find? x f →
      renderWithin vocabulary {} w depth x = .ok (.expression f.code f.strength) ∧ f.code ≠ "") :
    renderWithin vocabulary {} w (depth + 1) p =
      .ok (.statement (conditionalText first further hasElse)) := by
  obtain ⟨b, hb, hform, hconditions, hnone, helse, hempty⟩ := h
  have hholds {i : Nat} {condition : Option Formula}
      (hi : (first :: further)[i]? = some condition) :
      w.HoldsCondition (b.slots.find? (conditionSlot i)) condition :=
    hconditions (condition, i) (List.mem_zipIdx_iff_getElem?.2 hi)
  have htext {i : Nat} {condition : Option Formula}
      (hi : (first :: further)[i]? = some condition) (x : BlockId) (f : Formula)
      (hcondition : condition = some f) (hx : Holds w.find? x f) :
      renderWithin vocabulary {} w depth x = .ok (.expression f.code f.strength) ∧ f.code ≠ "" := by
    subst hcondition
    exact hrender x f (List.mem_of_getElem? hi) hx
  -- all slots are shown, those of the conditions by what they hold and the others as empty
  have hshown : ∀ e ∈ b.slots.entries, IsShown (renderWithin vocabulary {} w depth) e.2 := by
    intro e he
    by_cases hoccupant : e.2.occupant = none
    · exact isShown_of_occupant_eq_none hoccupant
    · obtain ⟨i, hlt, hname⟩ := hempty e he hoccupant
      have hi := List.getElem?_eq_getElem hlt
      have hslot := hholds hi
      rw [← hname, OrderedMap.find?_eq_some_iff.2 he] at hslot
      exact isShown_of_holdsCondition (htext hi) hslot
  obtain ⟨parts, hblock, hparts, hoptions⟩ : ∃ parts, w.parts vocabulary {}
      (renderWithin vocabulary {} w depth) controlsIf b p = .ok parts ∧
        parts.Shows (renderWithin vocabulary {} w depth) b.slots.entries ∧ parts.options = {} :=
    exists_parts_of_isShown hshown
  have hvalue {i : Nat} {condition : Option Formula}
      (hi : (first :: further)[i]? = some condition) (default : String) :
      parts.value (conditionSlot i) .loosest default = conditionCode default condition :=
    value_of_holdsCondition hparts (htext hi) (hholds hi) default
  have hslot {i : Nat} {condition : Option Formula}
      (hi : (first :: further)[i]? = some condition) :
      b.slots.contains (conditionSlot i) = true :=
    contains_of_holdsCondition (hholds hi)
  have hbody (slot : String) : parts.body slot = "    pass\n" := by
    have hblank : (parts.bodies.find? slot).getD "" = "" := by
      cases hslot : parts.bodies.find? slot with
      | none => rfl
      | some code => exact hparts.blank hslot
    rw [Parts.body, hblank, hoptions]
    exact Layout.block_empty ..
  have hwrite : writeConditional parts = conditionalText first further hasElse := by
    have hhas {name : String} : parts.hasSlot name = b.slots.contains name := hparts.hasSlot_eq
    apply writeConditional_eq
    · exact hvalue rfl "True"
    · intro i condition hi
      rw [Nat.add_comm 1 i, hhas]
      have hi : (first :: further)[i + 1]? = some condition := hi
      exact ⟨hslot hi, hvalue hi "False"⟩
    · rw [Nat.add_comm 1, hhas, ← OrderedMap.find?_isSome, ← List.length_cons, hnone]
      rfl
    · rw [hhas]
      exact helse
    · exact hbody
    · have hsize : (first :: further).length ≤ parts.values.size := by
        apply le_size_of_conditionSlot
        intro i hlt
        exact contains_values_of_holdsCondition hparts (hholds (List.getElem?_eq_getElem hlt))
      rw [List.length_cons] at hsize
      omega
  have hgated : controlsIf.gated = true := rfl
  have hget : vocabulary.get controlsIf.name = .ok controlsIf := rfl
  rw [renderWithin, get_of_find? hb]
  simp only [bind, Except.bind, hform, hget, hgated, hloud, Bool.and_false, Bool.false_eq_true,
    if_false, hblock]
  change Except.ok (Fragment.statement (writeConditional parts)) = _
  rw [hwrite]

end Workspace

end ScriptBlocks
