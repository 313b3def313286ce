import Mathlib.Data.List.Basic
import Mathlib.Data.List.TakeWhile
import ScriptBlocks.Text.Blank
import ScriptBlocks.Text.Digit
import ScriptBlocks.Text.Word

/-!
# Classes of characters

The characters that have a meaning of their own in an expression are neither word characters nor
digits, and neither is white space. So names and numbers are scanned as a whole and keep their ends
when a text is trimmed.

## Main definitions

* `Text.isPlain` — characters that only belong to an operand
* `Text.Trimmed` — no white space at either end

## Main statements

* `Text.trim_pad` — trimming takes white space away that was put around a trimmed text
-/

namespace ScriptBlocks.Text

/-! ### Deciding about the characters of a text

There are finitely many characters, but a condition on those of a text is not decided by trying all
of them. -/

instance (priority := high) decidableForallMem (s : List Char) (p : Char → Prop)
    [DecidablePred p] : Decidable (∀ c ∈ s, p c) :=
  List.decidableBAll p s

instance (priority := high) decidableExistsMem (s : List Char) (p : Char → Prop)
    [DecidablePred p] : Decidable (∃ c ∈ s, p c) :=
  List.decidableBEx p s

/-! ### Plain characters -/

/-- The characters that delimit operands. -/
def delimiters : List Char :=
  ['"', '\'', '(', '[', ')', ']', ' ', '\t', '*', '=', '!', '<', '>', '+', '-', '/']

/-- Whether `c` is neither a quote, a bracket or white space nor the start of an operator. -/
def isPlain (c : Char) : Bool := c ∉ delimiters && !isWhite c

theorem isPlain_iff {c : Char} : isPlain c = true ↔ c ∉ delimiters ∧ isWhite c = false := by
  rw [isPlain, Bool.and_eq_true, decide_eq_true_iff, Bool.not_eq_true']

/-- The code points of white space. -/
def whiteCodes : List Nat :=
  [9, 10, 11, 12, 13, 0x20, 0x85, 0xA0, 0x1680, 0x2000, 0x2001, 0x2002, 0x2003, 0x2004, 0x2005,
    0x2006, 0x2007, 0x2008, 0x2009, 0x200A, 0x2028, 0x2029, 0x202F, 0x205F, 0x3000]

theorem toNat_mem_whiteCodes {c : Char} (h : isWhite c = true) : c.toNat ∈ whiteCodes := by
  simp only [isWhite, Bool.or_eq_true, Bool.and_eq_true, decide_eq_true_iff] at h
  simp only [whiteCodes, List.mem_cons, List.not_mem_nil, or_false]
  omega

/-- A class of characters is plain if it has no delimiter and no white space. -/
theorem isPlain_of_class {test : Char → Bool} (hdelimiters : ∀ c ∈ delimiters, test c = false)
    (hwhite : ∀ n ∈ whiteCodes, test (Char.ofNat n) = false) {c : Char} (h : test c = true) :
    isPlain c = true := by
  have hdelimiter : c ∉ delimiters := by
    intro hmem
    exact nomatch h.symm.trans (hdelimiters c hmem)
  refine isPlain_iff.2 ⟨hdelimiter, ?_⟩
  cases hc : isWhite c with
  | false => rfl
  | true =>
    have hcode := hwhite c.toNat (toNat_mem_whiteCodes hc)
    rw [Char.ofNat_toNat] at hcode
    exact nomatch h.symm.trans hcode

theorem isPlain_of_isWord {c : Char} (h : isWord c = true) : isPlain c = true :=
  isPlain_of_class (by decide) (by decide +kernel) h

theorem isPlain_of_isDigit {c : Char} (h : isDigit c = true) : isPlain c = true :=
  isPlain_of_class (by decide) (by decide +kernel) h

theorem isWord_of_isAlpha {c : Char} (h : c.isAlpha = true) : isWord c = true :=
  isWord_of_ascii (by rw [Char.isAlphanum, h, Bool.true_or])

/-! ### Trimming -/

/-- The text has no white space at either end. -/
structure Trimmed (s : List Char) : Prop where
  head {c : Char} : s.head? = some c → isWhite c = false
  last {c : Char} : s.getLast? = some c → isWhite c = false

theorem trim_pad {a s b : List Char} (hs : Trimmed s) (ha : ∀ c ∈ a, isWhite c = true)
    (hb : ∀ c ∈ b, isWhite c = true) : trim (a ++ (s ++ b)) = s := by
  have hfront : (a ++ (s ++ b)).dropWhile isWhite = (s ++ b).dropWhile isWhite :=
    List.dropWhile_append_of_pos ha
  have hback {l : List Char} (hl : Trimmed l) : trimEnd (l ++ b) = l := by
    have hreverse : (l ++ b).reverse.dropWhile isWhite = l.reverse.dropWhile isWhite := by
      rw [List.reverse_append]
      exact List.dropWhile_append_of_pos fun c hc => hb c (List.mem_reverse.1 hc)
    have hkeep : l.reverse.dropWhile isWhite = l.reverse := by
      cases hrev : l.reverse with
      | nil => rfl
      | cons c t =>
        have hlast : l.getLast? = some c := by rw [← List.head?_reverse, hrev, List.head?_cons]
        exact List.dropWhile_cons_of_neg (by rw [hl.last hlast]; exact Bool.false_ne_true)
    rw [trimEnd, hreverse, hkeep, List.reverse_reverse]
  rw [trim, hfront]
  cases s with
  | nil =>
    have hblank : b.dropWhile isWhite = [] := List.dropWhile_eq_nil_iff.2 hb
    rw [List.nil_append, hblank]
    rfl
  | cons c t =>
    have hc : ¬ isWhite c = true := by rw [hs.head rfl]; exact Bool.false_ne_true
    rw [List.cons_append, List.dropWhile_cons_of_neg hc]
    exact hback hs

/-- Trimming takes white space away in front of any text. -/
theorem trim_append_of_isWhite {a s : List Char} (ha : ∀ c ∈ a, isWhite c = true) :
    trim (a ++ s) = trim s := by
  rw [trim, trim, List.dropWhile_append_of_pos ha]

theorem trim_of_trimmed {s : List Char} (hs : Trimmed s) : trim s = s := by
  have hnone : ∀ c ∈ ([] : List Char), isWhite c = true := fun _ h => absurd h List.not_mem_nil
  have hpad := trim_pad hs hnone hnone
  rwa [List.append_nil, List.nil_append] at hpad

theorem trimmed_of_isPlain {s : List Char} (hs : ∀ c ∈ s, isPlain c = true) : Trimmed s where
  head h := (isPlain_iff.1 (hs _ (List.mem_of_mem_head? h))).2
  last h := (isPlain_iff.1 (hs _ (List.mem_of_mem_getLast? h))).2

theorem Trimmed.append {s t : List Char} (hs : Trimmed s) (ht : Trimmed t) (hs' : s ≠ [])
    (ht' : t ≠ []) (mid : List Char) : Trimmed (s ++ (mid ++ t)) where
  head h := by
    rw [List.head?_append_of_ne_nil s hs'] at h
    exact hs.head h
  last h := by
    rw [List.getLast?_append_of_ne_nil _ (List.append_ne_nil_of_right_ne_nil _ ht'),
      List.getLast?_append_of_ne_nil _ ht'] at h
    exact ht.last h

/-- A text is what trimming leaves of it, between white space. -/
theorem exists_trim (s : List Char) : Trimmed (trim s) ∧ ∃ a b, s = a ++ (trim s ++ b) ∧
    (∀ c ∈ a, isWhite c = true) ∧ ∀ c ∈ b, isWhite c = true := by
  have hfront {l : List Char} {c : Char} (h : (l.dropWhile isWhite).head? = some c) :
      isWhite c = false := by
    have hnot := List.head?_dropWhile_not isWhite l
    rw [h] at hnot
    exact hnot
  obtain ⟨r, hr⟩ : ∃ r, r = s.dropWhile isWhite := ⟨_, rfl⟩
  have hsplit : r = trim s ++ (r.reverse.takeWhile isWhite).reverse := by
    rw [trim, ← hr, trimEnd, ← List.reverse_append, List.takeWhile_append_dropWhile,
      List.reverse_reverse]
  refine ⟨⟨fun {c} hc => ?_, fun {c} hc => ?_⟩, s.takeWhile isWhite,
    (r.reverse.takeWhile isWhite).reverse, ?_, fun c => List.mem_takeWhile_imp,
    fun c hc => List.mem_takeWhile_imp (List.mem_reverse.1 hc)⟩
  · have hne : trim s ≠ [] := by
      intro h
      rw [h] at hc
      exact nomatch hc
    have hhead : r.head? = some c := by
      rw [hsplit, List.head?_append_of_ne_nil _ hne, hc]
    exact hfront (hr ▸ hhead)
  · rw [trim, trimEnd, List.getLast?_reverse] at hc
    exact hfront hc
  · rw [← hsplit, hr, List.takeWhile_append_dropWhile]

/-- Trimming makes no text longer. -/
theorem length_trim_le (s : List Char) : (trim s).length ≤ s.length := by
  have hend (l : List Char) : (trimEnd l).length ≤ l.length := by
    have hdrop := (List.dropWhile_suffix (l := l.reverse) isWhite).length_le
    rwa [List.length_reverse, ← List.length_reverse] at hdrop
  exact Nat.le_trans (hend _) (List.dropWhile_suffix _).length_le

end ScriptBlocks.Text
