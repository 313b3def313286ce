import Mathlib.Logic.Basic
import Mathlib.Tactic.SplitIfs
import ScriptBlocks.Json.Reader

/-!
# Text between quotes

A character that has to be escaped is written with a backslash, by a letter or by its number. Each
of the three forms is read as the character that was written, so a text that is written between
quotes is read as itself, whatever its characters are, and the quote behind it is not taken for a
part of it.

## Main definitions

* `Json.isVerbatim` — characters that stand for themselves in a JSON string
* `Json.IsQuoted` — what may stand between the quotes of a string

## Main statements

* `Json.escape_eq_self_iff` — what is written as it is
* `Json.escapeChar_cases` — the three forms of a character
* `Json.unescape_escape` — the written form of a text stands for the text
* `Json.readRaw_of_isQuoted` — what stands between quotes is read up to the closing one
-/

namespace ScriptBlocks.Json

variable {s rest : List Char} {c : Char}

/-- Whether a character stands for itself between the quotes of a JSON string. -/
def isVerbatim (c : Char) : Bool := c ≠ '"' && c ≠ '\\' && 32 ≤ c.toNat

theorem escapeChar_of_isVerbatim (h : isVerbatim c = true) : escapeChar c = [c] := by
  simp only [isVerbatim, Bool.and_eq_true, decide_eq_true_eq] at h
  obtain ⟨⟨hquote, hbackslash⟩, hcode⟩ := h
  have hne {d : Char} (hd : d.toNat < 32) : c ≠ d := by
    rintro rfl
    omega
  rw [escapeChar, if_neg hquote, if_neg hbackslash, if_neg (by omega), if_neg (hne (by decide)),
    if_neg (hne (by decide)), if_neg (by omega), if_neg (hne (by decide)), if_neg (by omega)]

/-- A digit is none of the signs that mean something. -/
theorem ne_of_isDigit {d : Char} (hc : c.isDigit = true) (hd : d.isDigit = false) : c ≠ d := by
  rintro rfl
  exact nomatch hc.symm.trans hd

theorem isVerbatim_of_isDigit (hc : c.isDigit = true) : isVerbatim c = true := by
  have hcode : 32 ≤ c.toNat := by
    simp only [Char.isDigit, Bool.and_eq_true, decide_eq_true_eq, UInt32.le_iff_toNat_le] at hc
    exact Nat.le_trans (by decide) hc.1
  simp only [isVerbatim, Bool.and_eq_true, decide_eq_true_eq]
  exact ⟨⟨ne_of_isDigit hc (by decide), ne_of_isDigit hc (by decide)⟩, hcode⟩

/-- A character is written as it is, by a letter, or by its number. -/
theorem escapeChar_cases (c : Char) :
    (c ≠ '"' ∧ c ≠ '\\' ∧ 32 ≤ c.toNat ∧ escapeChar c = [c]) ∨
      (∃ letter, escapeChar c = ['\\', letter] ∧ escapedChar? letter = some c) ∨
      ∃ high low, escapeChar c = ['\\', 'u', '0', '0', high, low] ∧
        hex4? '0' '0' high low = some c.toNat ∧ c.toNat < 32 := by
  have hcode {n : Nat} (h : c.toNat = n) : c = .ofNat n := by rw [← h, Char.ofNat_toNat]
  rw [escapeChar]
  by_cases hquote : c = '"'
  · exact .inr (.inl ⟨'"', if_pos hquote, congrArg some hquote.symm⟩)
  rw [if_neg hquote]
  by_cases hbackslash : c = '\\'
  · exact .inr (.inl ⟨'\\', if_pos hbackslash, congrArg some hbackslash.symm⟩)
  rw [if_neg hbackslash]
  by_cases hback : c.toNat = 8
  · exact .inr (.inl ⟨'b', if_pos hback, congrArg some (hcode hback).symm⟩)
  rw [if_neg hback]
  by_cases htab : c = '\t'
  · exact .inr (.inl ⟨'t', if_pos htab, congrArg some htab.symm⟩)
  rw [if_neg htab]
  by_cases hline : c = '\n'
  · exact .inr (.inl ⟨'n', if_pos hline, congrArg some hline.symm⟩)
  rw [if_neg hline]
  by_cases hform : c.toNat = 12
  · exact .inr (.inl ⟨'f', if_pos hform, congrArg some (hcode hform).symm⟩)
  rw [if_neg hform]
  by_cases hreturn : c = '\r'
  · exact .inr (.inl ⟨'r', if_pos hreturn, congrArg some hreturn.symm⟩)
  rw [if_neg hreturn]
  by_cases hcontrol : c.toNat < 32
  · have hall : ∀ n < 32, hex4? '0' '0' (hexDigit (n / 16)) (hexDigit (n % 16)) = some n := by
      decide +kernel
    exact .inr (.inr ⟨_, _, if_pos hcontrol, hall c.toNat hcontrol, hcontrol⟩)
  · exact .inl ⟨hquote, hbackslash, Nat.le_of_not_lt hcontrol, if_neg hcontrol⟩

/-- Every other character takes two characters at least, a backslash in front. -/
theorem two_le_length_escapeChar (h : isVerbatim c = false) : 2 ≤ (escapeChar c).length := by
  rcases escapeChar_cases c with ⟨hquote, hbackslash, hcode, -⟩ | ⟨letter, hletter, -⟩ |
    ⟨high, low, hnumber, -⟩
  · rw [isVerbatim, decide_eq_true hquote, decide_eq_true hbackslash, decide_eq_true hcode] at h
    exact absurd h (by decide)
  · rw [hletter]
    exact Nat.le_refl 2
  · rw [hnumber]
    exact Nat.le_add_left 2 4

theorem escape_cons (c : Char) (s : List Char) : escape (c :: s) = escapeChar c ++ escape s :=
  List.flatMap_cons

theorem escape_eq_self (h : ∀ c ∈ s, isVerbatim c = true) : escape s = s := by
  induction s with
  | nil => rfl
  | cons c s ih =>
    obtain ⟨hc, hs⟩ := List.forall_mem_cons.1 h
    rw [escape_cons, escapeChar_of_isVerbatim hc, ih hs, List.singleton_append]

theorem length_le_length_escape (s : List Char) : s.length ≤ (escape s).length := by
  induction s with
  | nil => exact Nat.le_refl _
  | cons c s ih =>
    have hc : 1 ≤ (escapeChar c).length := by
      cases h : isVerbatim c with
      | true => simp [escapeChar_of_isVerbatim h]
      | false => exact Nat.le_of_succ_le (two_le_length_escapeChar h)
    rw [escape_cons, List.length_append, List.length_cons]
    omega

/-- An escaped character makes the text longer. -/
theorem escape_eq_self_iff : escape s = s ↔ ∀ c ∈ s, isVerbatim c = true := by
  refine ⟨fun h => ?_, escape_eq_self⟩
  induction s with
  | nil => exact nofun
  | cons c s ih =>
    have hlength := congrArg List.length h
    have hle := length_le_length_escape s
    rw [escape_cons, List.length_append, List.length_cons] at hlength
    cases hc : isVerbatim c with
    | false =>
      have htwo := two_le_length_escapeChar hc
      omega
    | true =>
      rw [escape_cons, escapeChar_of_isVerbatim hc, List.singleton_append] at h
      exact List.forall_mem_cons.2 ⟨hc, ih (List.cons.inj h).2⟩

/-- Control characters are all escaped. -/
theorem le_toNat_of_mem_escape (h : c ∈ escape s) : 32 ≤ c.toNat := by
  obtain ⟨d, -, hc⟩ := List.mem_flatMap.1 h
  by_cases hcode : d.toNat < 32
  · have hall : ∀ n < 32, (escapeChar (Char.ofNat n)).all (fun c => 32 ≤ c.toNat) = true := by
      decide +kernel
    have hd := List.all_eq_true.1 (hall d.toNat hcode) c
    rw [Char.ofNat_toNat] at hd
    exact of_decide_eq_true (hd hc)
  · cases hd : isVerbatim d with
    | true =>
      rw [escapeChar_of_isVerbatim hd, List.mem_singleton] at hc
      rw [hc]
      exact Nat.le_of_not_lt hcode
    | false =>
      have hsign : d = '"' ∨ d = '\\' := by
        simpa [isVerbatim, Nat.le_of_not_lt hcode, imp_iff_not_or] using hd
      have hall : (escapeChar d).all (fun c => 32 ≤ c.toNat) = true := by
        rcases hsign with rfl | rfl <;> decide
      exact of_decide_eq_true (List.all_eq_true.1 hall c hc)

/-! ### Reading -/

/-- The number of a control character names that character: it is no surrogate, so it makes no
difference whether another number follows. -/
theorem unescape_control {high low : Char} (hunit : hex4? '0' '0' high low = some c.toNat)
    (hcode : c.toNat < 32) :
    unescape ('\\' :: 'u' :: '0' :: '0' :: high :: low :: rest) = (unescape rest).map (c :: ·) := by
  have hhigh : isHighSurrogate c.toNat = false := by
    simp only [isHighSurrogate, Bool.and_eq_false_iff, decide_eq_false_iff_not]
    omega
  have hlow : isLowSurrogate c.toNat = false := by
    simp only [isLowSurrogate, Bool.and_eq_false_iff, decide_eq_false_iff_not]
    omega
  by_cases hnext : ∃ e f g h rest', rest = '\\' :: 'u' :: e :: f :: g :: h :: rest'
  · obtain ⟨e, f, g, h, rest', rfl⟩ := hnext
    rw [unescape, hunit, Option.map_eq_bind]
    simp only [Option.bind_eq_bind, Option.bind_some, hhigh, hlow, Bool.false_eq_true, if_false,
      Char.ofNat_toNat]
    rfl
  · rw [unescape.eq_3 '0' '0' high low rest fun e f g h rest' heq => hnext ⟨e, f, g, h, rest', heq⟩,
      hunit, Option.map_eq_bind]
    simp only [Option.bind_eq_bind, Option.bind_some, hhigh, hlow, Bool.or_self, Bool.false_eq_true,
      if_false, Char.ofNat_toNat]
    rfl

/-- In front of anything, the written form of a character stands for that character. -/
theorem unescape_escapeChar (c : Char) (rest : List Char) :
    unescape (escapeChar c ++ rest) = (unescape rest).map (c :: ·) := by
  rcases escapeChar_cases c with ⟨-, hc, -, h⟩ | ⟨letter, h, hletter⟩ |
    ⟨high, low, h, hunit, hcode⟩
  · rw [h, List.singleton_append, unescape, if_neg hc]
    all_goals
      intros
      contradiction
  · have hu : letter ≠ 'u' := by
      rintro rfl
      exact nomatch hletter
    rw [h, List.cons_append, List.singleton_append, unescape.eq_4, hletter, Option.map_eq_bind]
    · rfl
    all_goals
      intros
      contradiction
  · rw [h]
    exact unescape_control hunit hcode

/-- The written form of a text stands for the text. -/
theorem unescape_escape (s : List Char) : unescape (escape s) = some s := by
  induction s with
  | nil => rfl
  | cons c s ih => rw [escape_cons, unescape_escapeChar, ih, Option.map_some]

/-- What may stand between the quotes of a string: characters that stand for themselves, and those
that are written with a backslash, by a letter or by four hexadecimal digits. -/
inductive IsQuoted : List Char → Prop where
  | nil : IsQuoted []
  | verbatim {c : Char} {raw : List Char} : isVerbatim c = true → IsQuoted raw → IsQuoted (c :: raw)
  | letter {c : Char} {raw : List Char} : (escapedChar? c).isSome = true → IsQuoted raw →
    IsQuoted ('\\' :: c :: raw)
  | code {a b c d : Char} {raw : List Char} : (hex4? a b c d).isSome = true → IsQuoted raw →
    IsQuoted ('\\' :: 'u' :: a :: b :: c :: d :: raw)

theorem isQuoted_escape (s : List Char) : IsQuoted (escape s) := by
  induction s with
  | nil => exact .nil
  | cons c s ih =>
    rw [escape_cons]
    rcases escapeChar_cases c with ⟨hquote, hc, hcode, h⟩ | ⟨letter, h, hletter⟩ |
      ⟨high, low, h, hunit, -⟩
    · rw [h]
      exact .verbatim (by simp [isVerbatim, hquote, hc, hcode]) ih
    · rw [h]
      exact .letter (by rw [hletter]; rfl) ih
    · rw [h]
      exact .code (by rw [hunit]; rfl) ih

/-- What stands between quotes is read up to the closing one. -/
theorem readRaw_of_isQuoted {raw : List Char} (h : IsQuoted raw) (rest : List Char) :
    readRaw (raw ++ '"' :: rest) = some (raw, rest) := by
  induction h with
  | nil => rfl
  | @verbatim c raw hc _ ih =>
    simp only [isVerbatim, Bool.and_eq_true, decide_eq_true_eq] at hc
    obtain ⟨⟨hquote, hbackslash⟩, hcode⟩ := hc
    have hguard : ¬(c = '\\' ∨ c.toNat < 32) := not_or.2 ⟨hbackslash, Nat.not_lt.2 hcode⟩
    rw [List.cons_append, readRaw, if_neg hguard, ih]
    · rfl
    all_goals
      intros
      contradiction
  | @letter c raw hc _ ih =>
    obtain ⟨plain, hplain⟩ := Option.isSome_iff_exists.1 hc
    have hu : c ≠ 'u' := by
      rintro rfl
      exact nomatch hplain
    rw [List.cons_append, List.cons_append, readRaw.eq_4, hplain, ih]
    · rfl
    · intros
      contradiction
  | code hunit _ ih =>
    obtain ⟨unit, hunit⟩ := Option.isSome_iff_exists.1 hunit
    simp only [List.cons_append]
    rw [readRaw, hunit, ih]
    rfl

end ScriptBlocks.Json
