import ScriptBlocks.Dialect
import ScriptBlocks.Proofs.Json.Quoted
import ScriptBlocks.Proofs.Number.Numeral
import ScriptBlocks.Proofs.Text.Layout

/-!
# Texts without carriage returns

Carriage returns are taken out of a body when it is laid out. No form puts one into its text: those
that are there come from the fields, from the names of variables or from the placeholder.

## Main definitions

* `NoReturn` — a text without carriage returns
* `Parts.NoReturns` — parts in which a form comes across none

## Main statements

* `Dialect.noReturn_write` — the built-in forms add no carriage returns
-/

namespace ScriptBlocks

/-- There is no carriage return in the text. -/
def NoReturn (s : String) : Prop := '\r' ∉ s.toList

instance (s : String) : Decidable (NoReturn s) := inferInstanceAs (Decidable ('\r' ∉ s.toList))

variable {s t : String}

theorem noReturn_append : NoReturn (s ++ t) ↔ NoReturn s ∧ NoReturn t := by
  rw [NoReturn, String.toList_append, List.mem_append, not_or]
  rfl

theorem noReturn_ofList {l : List Char} : NoReturn (.ofList l) ↔ '\r' ∉ l := by
  rw [NoReturn, String.toList_ofList]

theorem noReturn_ite {c : Prop} [Decidable c] (hs : NoReturn s) (ht : NoReturn t) :
    NoReturn (if c then s else t) := by
  split
  · exact hs
  · exact ht

theorem noReturn_join {l : List String} (h : ∀ s ∈ l, NoReturn s) : NoReturn (String.join l) := by
  rw [NoReturn, String.toList_join, List.mem_flatMap]
  rintro ⟨s, hs, hmem⟩
  exact h s hs hmem

theorem noReturn_intercalate {l : List String} (hs : NoReturn s) (h : ∀ t ∈ l, NoReturn t) :
    NoReturn (s.intercalate l) := by
  rw [NoReturn, String.toList_intercalate]
  induction l with
  | nil => exact List.not_mem_nil
  | cons t l ih =>
    rw [List.forall_mem_cons] at h
    cases l with
    | nil => rw [List.map_singleton, List.intercalate_singleton]; exact h.1
    | cons u l =>
      rw [List.map_cons, List.map_cons, List.intercalate_cons_cons, ← List.map_cons]
      exact List.not_mem_append (List.not_mem_append h.1 hs) (ih h.2)

theorem noReturn_toString (n : Nat) : NoReturn (toString n) := by
  rw [NoReturn, toList_toString_nat]
  intro h
  exact absurd (isDigit_of_mem_toDigits h) (by decide)

/-- In a quoted text there are no control characters at all. -/
theorem noReturn_quote (s : String) : NoReturn (Json.quote s) := by
  rw [Json.quote, noReturn_ofList]
  intro h
  rcases List.mem_append.1 h with h | h
  · rcases List.mem_cons.1 h with h | h
    · exact absurd h (by decide)
    · exact absurd (Json.le_toNat_of_mem_escape h) (by decide)
  · exact absurd (List.mem_singleton.1 h) (by decide)

theorem noReturn_block (code : String) {indent placeholder : String} (hindent : NoReturn indent)
    (hplaceholder : NoReturn placeholder) : NoReturn (Layout.block code indent placeholder) := by
  rw [Layout.block, noReturn_ofList]
  intro h
  exact hplaceholder (Layout.return_of_mem_blockChars hindent h).2

/-! ### Small letters -/

namespace Text

theorem ofNat_ne_return {n : Nat} (h : n ≠ 13) : Char.ofNat n ≠ '\r' := by
  by_cases hvalid : n.isValidChar
  · rw [Char.ofNat, dif_pos hvalid]
    intro heq
    exact h (congrArg Char.toNat heq)
  · rw [Char.ofNat, dif_neg hvalid]
    decide

theorem lowerRuns_target : ∀ r ∈ lowerRuns, 13 < r.target := by decide +kernel

/-- No capital letter has a carriage return for its small letter. -/
theorem not_mem_lowerChar {c : Char} (hc : c ≠ '\r') : '\r' ∉ lowerChar c := by
  rw [lowerChar]
  split
  · next hascii =>
    have hsmall : ∀ n < 128, (Char.ofNat n).toLower = '\r' → n = 13 := by decide
    rw [List.mem_singleton]
    intro h
    rw [← Char.ofNat_toNat c] at h
    have hn := hsmall c.toNat hascii h.symm
    rw [← Char.ofNat_toNat c, hn] at hc
    exact hc rfl
  · split
    · decide
    · rw [List.mem_singleton]
      intro h
      cases hfind : lowerRuns.findSome? (·.lower? c.toNat) with
      | none =>
        rw [hfind] at h
        exact hc h.symm
      | some small =>
        rw [hfind] at h
        obtain ⟨r, hr, hlower⟩ := List.exists_of_findSome?_eq_some hfind
        rw [CaseRun.lower?] at hlower
        split at hlower
        · have htarget := lowerRuns_target r hr
          exact ofNat_ne_return (by omega) ((Option.some.inj hlower).trans h.symm)
        · exact nomatch hlower

theorem not_mem_lowerAfter {l : List Char} (hl : '\r' ∉ l) (before : List Char) :
    '\r' ∉ lowerAfter before l := by
  induction l generalizing before with
  | nil => exact List.not_mem_nil
  | cons c rest ih =>
    rw [List.mem_cons, not_or] at hl
    rw [lowerAfter]
    refine List.not_mem_append ?_ (ih hl.2 _)
    split
    · split <;> decide
    · exact not_mem_lowerChar (Ne.symm hl.1)

theorem noReturn_lower (hs : NoReturn s) : NoReturn (lower s) :=
  noReturn_ofList.2 (not_mem_lowerAfter hs [])

end Text

/-! ### The forms -/

/-- A form comes across no carriage return in the parts. -/
structure Parts.NoReturns (p : Parts) : Prop where
  fieldText (name : String) : NoReturn (p.fieldText name)
  value (slot : String) (required : Precedence) {default : String} :
    NoReturn default → NoReturn (p.value slot required default)
  body (slot : String) : NoReturn (p.body slot)
  globalsLine : NoReturn p.globalsLine
  variableName {name : String} : p.variableName? = some name → NoReturn name

namespace Parts.NoReturns

variable {p : Parts} (hp : p.NoReturns)
include hp

theorem fieldOr (name : String) {default : String} (hdefault : NoReturn default) :
    NoReturn (p.fieldOr name default) :=
  noReturn_ite hdefault (hp.fieldText name)

end Parts.NoReturns

namespace Dialect

variable {p : Parts} (hp : p.NoReturns)
include hp

theorem noReturn_variableName : NoReturn (Dialect.variableName p) := by
  rw [Dialect.variableName]
  cases hname : p.variableName? with
  | none => exact hp.fieldText "VAR"
  | some name => exact hp.variableName hname

theorem noReturn_arm {word default : String} (hword : NoReturn word) (hdefault : NoReturn default)
    (n : Nat) : NoReturn (arm p word n default) := by
  simp +decide only [arm, noReturn_append, hword, hp.value _ _ hdefault, hp.body]

theorem noReturn_furtherArms (fuel n : Nat) : NoReturn (furtherArms p fuel n) := by
  induction fuel generalizing n with
  | zero => exact (by decide : NoReturn "")
  | succ fuel ih =>
    rw [furtherArms]
    refine noReturn_ite ?_ (by decide)
    exact noReturn_append.2 ⟨noReturn_arm hp (by decide) (by decide) n, ih (n + 1)⟩

theorem noReturn_writeConditional : NoReturn (writeConditional p) := by
  refine noReturn_append.2 ⟨noReturn_append.2 ⟨?_, noReturn_furtherArms hp _ _⟩, ?_⟩
  · exact noReturn_arm hp (by decide) (by decide) 0
  · refine noReturn_ite ?_ (by decide)
    exact noReturn_append.2 ⟨by decide, hp.body elseSlot⟩

omit hp

theorem noReturn_atLight {function : String} (hfunction : NoReturn function) (x y : Nat) :
    NoReturn (atLight function x y) := by
  simp +decide only [atLight, noReturn_append, hfunction, noReturn_toString]

theorem noReturn_drawIcon (name : String) : NoReturn (drawIcon name) := by
  refine noReturn_join fun s hs => ?_
  rcases List.mem_append.1 hs with hs | hs
  · obtain ⟨y, -, hs⟩ := List.mem_flatMap.1 hs
    obtain ⟨x, -, rfl⟩ := List.mem_map.1 hs
    exact noReturn_atLight (by decide) x y
  · obtain ⟨_, -, hs⟩ := List.mem_flatMap.1 hs
    obtain ⟨x, -, rfl⟩ := List.mem_map.1 hs
    exact noReturn_atLight (by decide) x _

theorem mem_intersperse {separator c : Char} {l : List Char} (h : c ∈ l.intersperse separator) :
    c = separator ∨ c ∈ l := by
  fun_induction List.intersperse separator l <;> grind

/-- The rows of a picture are made of the marks for its lights. -/
theorem not_mem_matrixRow (line : List Char) : '\r' ∉ matrixRow line := by
  intro h
  rw [matrixRow, List.rightpad] at h
  rcases List.mem_append.1 h with h | h
  · exact absurd (List.mem_filter.1 (List.mem_of_mem_take h)).2 (by decide)
  · exact absurd (List.eq_of_mem_replicate h) (by decide)

theorem noReturn_matrix (text : List Char) :
    NoReturn (joinRows "\n" ((matrixRows text).map fun row => row.intersperse ' ')) := by
  refine noReturn_intercalate (by decide) fun t ht => ?_
  obtain ⟨marks, hmarks, rfl⟩ := List.mem_map.1 ht
  obtain ⟨row, hrow, rfl⟩ := List.mem_map.1 hmarks
  obtain ⟨line, -, rfl⟩ := List.mem_map.1 hrow
  rw [noReturn_ofList]
  intro h
  rcases mem_intersperse h with h | h
  · exact absurd h (by decide)
  · exact not_mem_matrixRow line h

theorem noReturn_image (image : List Char) :
    NoReturn (.ofList ((image.filter (· ≠ '\r')).flatMap fun c =>
      if c = '\n' then ['\\', 'n'] else [c])) := by
  rw [noReturn_ofList, List.mem_flatMap]
  rintro ⟨c, hc, h⟩
  split at h
  · exact absurd h (by decide)
  · exact of_decide_eq_true (List.mem_filter.1 hc).2 (List.mem_singleton.1 h).symm

theorem noReturn_symbol (code : String) :
    NoReturn ((arithmeticOperators.find? fun op => op.code = code).getD addition).symbol := by
  have h : ∀ op ∈ arithmeticOperators, NoReturn op.symbol := by decide
  cases hfind : arithmeticOperators.find? fun op => op.code = code with
  | none => exact (by decide : NoReturn addition.symbol)
  | some op => exact h op (List.mem_of_find?_eq_some hfind)

theorem noReturn_comparison (code : String) :
    NoReturn (((comparisons.find? fun e => e.1 = code).map Prod.snd).getD "==") := by
  have h : ∀ e ∈ comparisons, NoReturn e.2 := by decide
  cases hfind : comparisons.find? fun e => e.1 = code with
  | none => exact (by decide : NoReturn "==")
  | some e => exact h e (List.mem_of_find?_eq_some hfind)

theorem noReturn_function {header : String} {p : Parts} (hp : p.NoReturns)
    (hheader : NoReturn header) : NoReturn (function header p) := by
  simp +decide only [function, noReturn_append, hheader, hp.globalsLine, hp.body]

theorem noReturn_coordinateCall {name : String} {p : Parts} (hp : p.NoReturns)
    (hname : NoReturn name) : NoReturn (coordinateCall name p) := by
  simp +decide only [coordinateCall, noReturn_append, hname, hp.fieldOr]

theorem noReturn_ringTone {frequency : String} (h : NoReturn frequency) :
    NoReturn (ringTone frequency) :=
  noReturn_append.2 ⟨noReturn_append.2 ⟨by decide, h⟩, by decide⟩

/-- No form adds a carriage return. -/
theorem noReturn_write {form : Form} (hform : form ∈ forms) {p : Parts} (hp : p.NoReturns)
    {fragment : Fragment} (hwrite : form.write p = .ok fragment) : NoReturn fragment.code := by
  simp only [forms, List.mem_cons, List.not_mem_nil, or_false] at hform
  rcases hform with rfl | rfl | rfl | rfl | rfl | rfl | rfl | rfl | rfl | rfl | rfl | rfl | rfl |
    rfl | rfl | rfl | rfl | rfl | rfl | rfl | rfl | rfl | rfl | rfl | rfl | rfl | rfl | rfl |
    rfl | rfl
  case inr.inr.inr.inr.inr.inr.inr.inr.inr.inr.inr.inr.inr.inr.inr.inr.inr.inr.inr.inr.inr.inl =>
    -- a tone that is looped is written as one that rings
    rcases ite_eq_iff.1 hwrite with ⟨-, h⟩ | ⟨-, h⟩
    · obtain rfl := Except.ok.inj h
      exact noReturn_ringTone (hp.fieldOr _ (by decide))
    · obtain rfl := Except.ok.inj h
      simp +decide only [Fragment.code, noReturn_append, hp.fieldOr]
  case inr.inr.inr.inr.inr.inr.inr.inr.inr.inr.inr.inr.inr.inr.inl =>
    have hbutton : NoReturn (p.fieldOr "BUTTON" "A") := hp.fieldOr _ (by decide)
    have hname := noReturn_append.2 ⟨(by decide : NoReturn "on_button_pressed_"),
      Text.noReturn_lower hbutton⟩
    obtain rfl := Except.ok.inj hwrite
    simp +decide only [Fragment.code, noReturn_append, noReturn_function hp hname, hbutton,
      Text.noReturn_lower hbutton]
  -- each other text is put together from literals and from pieces that have none
  all_goals
    obtain rfl := Except.ok.inj hwrite
    simp +decide only [Fragment.code, noReturn_append, hp.value, hp.fieldOr,
      noReturn_variableName hp, noReturn_matrix, noReturn_image, noReturn_drawIcon,
      noReturn_coordinateCall hp, noReturn_writeConditional hp, noReturn_function hp,
      noReturn_ringTone, noReturn_quote, noReturn_symbol, noReturn_comparison, noReturn_ite]

end Dialect

end ScriptBlocks
