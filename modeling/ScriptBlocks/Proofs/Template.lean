import ScriptBlocks.Block
import ScriptBlocks.Proofs.OrderedMap

/-!
# What a template gives to a new block

A new block takes its slots and its default fields from the arguments of its template. Where several
arguments have one name, the later ones hide the earlier ones. Where the names are distinct, each
argument is found under its own name.

## Main definitions

* `Template.argNames` — the names of the arguments

## Main statements

* `Block.find?_slots_ofTemplate` — the slot of an argument
* `Block.find?_fields_ofTemplate` — the default of an argument
-/

namespace ScriptBlocks

/-- What a function selects is among what a function selects that agrees with it. -/
theorem filterMap_sublist {α β : Type} {f g : α → Option β} (h : ∀ a b, f a = some b → g a = some b)
    (l : List α) : (l.filterMap f).Sublist (l.filterMap g) := by
  induction l with
  | nil => exact .slnil
  | cons a l ih =>
    cases hf : f a with
    | none =>
      rw [List.filterMap_cons_none hf, List.filterMap_cons]
      cases g a with
      | none => exact ih
      | some b => exact ih.cons b
    | some b =>
      rw [List.filterMap_cons_some hf, List.filterMap_cons_some (h a b hf)]
      exact ih.cons_cons b

/-- The names of the arguments of a template, in order. -/
def Template.argNames (t : Template) : List String := t.args.filterMap Arg.name?

namespace Template

variable {t : Template} {name : String} {check : Option Capability}

theorem mem_valueSlots : (name, check) ∈ t.valueSlots ↔ .value name check ∈ t.args := by
  rw [valueSlots, List.mem_filterMap]
  constructor
  · rintro ⟨a, ha, heq⟩
    cases a with
    | value =>
      cases heq
      exact ha
    | _ => exact nomatch heq
  · intro h
    exact ⟨_, h, rfl⟩

/-- What is made of arguments under their own names is made under distinct names. -/
theorem nodup_filterMap {α : Type} {f : Arg → Option (String × α)}
    (hf : ∀ a e, f a = some e → a.name? = some e.1) (hnodup : t.argNames.Nodup) :
    ((t.args.filterMap f).map Prod.fst).Nodup := by
  rw [List.map_filterMap]
  refine hnodup.sublist (filterMap_sublist (fun a b h => ?_) t.args)
  obtain ⟨e, he, rfl⟩ := Option.map_eq_some_iff.1 h
  exact hf a e he

theorem name?_of_ofArg? (a : Arg) (e : String × Slot) (h : Slot.ofArg? a = some e) :
    a.name? = some e.1 := by
  cases a with
  | value | statement =>
    cases h
    rfl
  | _ => exact nomatch h

theorem name?_of_default? (a : Arg) (e : String × Value) (h : a.default? = some e) :
    a.name? = some e.1 := by
  rw [Arg.default?] at h
  obtain ⟨name, hname, h⟩ := Option.bind_eq_some_iff.1 h
  obtain ⟨value, -, h⟩ := Option.bind_eq_some_iff.1 h
  cases h
  exact hname

end Template

namespace Block

variable {t : Template} {a : Arg} {id : BlockId} {form : String} {fields : Fields}

/-- Each slot of a template is found in a new block. -/
theorem find?_slots_ofTemplate (hnodup : t.argNames.Nodup) (ha : a ∈ t.args) {e : String × Slot}
    (he : Slot.ofArg? a = some e) :
    (ofTemplate id form t fields).slots.find? e.1 = some e.2 :=
  OrderedMap.find?_insertMany_of_mem (Template.nodup_filterMap Template.name?_of_ofArg? hnodup)
    (List.mem_filterMap.2 ⟨a, ha, he⟩)

/-- Each default of a template is found in a new block to which no fields are given. -/
theorem find?_fields_ofTemplate (hnodup : t.argNames.Nodup) (ha : a ∈ t.args) {e : String × Value}
    (he : a.default? = some e) : (ofTemplate id form t ∅).fields.find? e.1 = some e.2 :=
  OrderedMap.find?_insertMany_of_mem (Template.nodup_filterMap Template.name?_of_default? hnodup)
    (List.mem_filterMap.2 ⟨a, ha, he⟩)

end Block

end ScriptBlocks
