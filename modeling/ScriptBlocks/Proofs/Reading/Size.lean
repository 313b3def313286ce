import ScriptBlocks.Proofs.Dialect.Landmark
import ScriptBlocks.Proofs.Reading.Lines

/-!
# How many blocks a text can create

An argument is read no deeper than its line is long, and a form takes no more arguments than it has
value slots. So a line creates at most a number of blocks that depends on its length only, whatever
it says and wherever it is read.

## Main definitions

* `Vocabulary.TakesAtMost` — a bound on the arguments of a form

## Main statements

* `Workspace.attachArgumentCreations_le` — the bound for an argument, by its depth
* `Workspace.readDocumentCreations_le` — the bound for a document, line by line
* `Dialect.takesAtMost_vocabulary` — the dialect has forms of two arguments and no more
-/

namespace ScriptBlocks

/-- The forms that are read with arguments have at most `n` value slots. -/
def Vocabulary.TakesAtMost (v : Vocabulary) (n : Nat) : Prop :=
  ∀ form ∈ v.forms, form.construction = .withArguments → form.template.valueSlots.length ≤ n

theorem Dialect.takesAtMost_vocabulary : vocabulary.TakesAtMost 2 := by
  unfold Vocabulary.TakesAtMost
  decide

namespace Workspace

variable {v : Vocabulary} {n k : Nat} {form : Form}

theorem formCreations_le_one (v : Vocabulary) (form : String) : formCreations v form ≤ 1 := by
  rw [formCreations]
  split <;> decide

theorem length_takeArguments_le (slots : List String) (fields : Fields) :
    (takeArguments slots fields).1.length ≤ slots.length := by
  induction slots generalizing fields with
  | nil => exact Nat.le_refl 0
  | cons slot slots ih =>
    rw [takeArguments]
    cases fields.find? slot with
    | none => exact Nat.le_succ_of_le (ih fields)
    | some value => exact Nat.succ_le_succ (ih (fields.erase slot))

theorem attachAllCreations_le {attach : Workspace → String → String → Attempt Unit}
    {creations : Workspace → String → String → Nat} (h : ∀ w slot text, creations w slot text ≤ k)
    (arguments : List (String × String)) (w : Workspace) :
    attachAllCreations attach creations arguments w ≤ arguments.length * k := by
  induction arguments generalizing w with
  | nil => exact Nat.zero_le _
  | cons argument arguments ih =>
    rw [attachAllCreations, List.length_cons, Nat.succ_mul, Nat.add_comm]
    refine Nat.add_le_add ?_ (h ..)
    split
    · exact ih _
    · exact Nat.zero_le _

/-- A block takes one id, and so does a default literal in it; its arguments take what each of them
does. -/
theorem constructCreations_le {attach : Workspace → BlockId → String → String → Attempt Unit}
    {creations : Workspace → BlockId → String → String → Nat}
    (h : ∀ w id slot text, creations w id slot text ≤ k) (hv : v.TakesAtMost n)
    (hform : form ∈ v.forms) (hpos : 0 < n * k) (w : Workspace) (fields : Fields) :
    constructCreations v attach creations w form fields ≤ n * k + 1 := by
  rw [constructCreations]
  cases hconstruction : form.construction with
  | bare => exact (formCreations_le_one v form.name).trans (Nat.le_add_left 1 _)
  | withArguments =>
    have hlength : (takeArguments (form.template.valueSlots.map Prod.fst) fields).1.length ≤ n :=
      (length_takeArguments_le _ fields).trans
        ((List.length_map _).symm ▸ hv form hform hconstruction)
    dsimp only
    split
    · exact Nat.zero_le _
    · rw [Nat.add_comm]
      exact Nat.succ_le_succ
        ((attachAllCreations_le (h · _) _ _).trans (Nat.mul_le_mul_right k hlength))
  | literal slot literal field fallback =>
    dsimp only
    split
    · exact Nat.zero_le _
    · split
      · exact Nat.le_add_left 1 _
      · rw [Nat.add_comm]
        exact Nat.succ_le_succ ((formCreations_le_one v literal).trans hpos)

/-- A block with arguments of `n` texts, each within the bound of its depth, is within the next. -/
theorem mul_pow_add_one_le (n d : Nat) : n * (n + 1) ^ d + 1 ≤ (n + 1) ^ (d + 1) := by
  rw [Nat.pow_succ, Nat.mul_succ, Nat.mul_comm]
  exact Nat.add_le_add_left (Nat.pow_pos (Nat.succ_pos n)) _

theorem mem_of_expressionFor {text : String} {c : Capture}
    (h : v.expressionFor text = some (form, c)) : form ∈ v.forms := by
  obtain ⟨f, hf, hmatch⟩ := List.exists_of_findSome?_eq_some h
  obtain ⟨_, -, heq⟩ := Option.map_eq_some_iff.1 hmatch
  cases heq
  exact List.mem_of_mem_filter hf

theorem attachArgumentCreations_le (hv : v.TakesAtMost n) (hn : 0 < n) (depth : Nat)
    (w : Workspace) (id : BlockId) (slot text : String) :
    attachArgumentCreations v depth w id slot text ≤ (n + 1) ^ depth := by
  induction depth generalizing w id slot text with
  | zero => exact Nat.zero_le _
  | succ depth ih =>
    rw [attachArgumentCreations_succ]
    rcases hargument : v.argument? text with _ | e | ⟨form, given⟩
    · exact Nat.zero_le _
    · exact Nat.zero_le _
    · obtain ⟨-, c, hform, -⟩ := Vocabulary.argument?_eq_ok_iff.1 hargument
      exact (constructCreations_le ih hv (mem_of_expressionFor hform)
        (Nat.mul_pos hn (Nat.pow_pos n.succ_pos)) w given).trans (mul_pow_add_one_le n depth)

theorem buildCreations_le (hv : v.TakesAtMost n) (hn : 0 < n) (hform : form ∈ v.forms)
    (w : Workspace) (line : String) (c : Capture) :
    buildCreations v w line form c ≤ (n + 1) ^ (line.length + 1) := by
  rw [buildCreations]
  cases form.readFields c with
  | error => exact Nat.zero_le _
  | ok fields =>
    exact (constructCreations_le (attachArgumentCreations_le hv hn line.length) hv hform
      (Nat.mul_pos hn (Nat.pow_pos n.succ_pos)) w fields).trans (mul_pow_add_one_le n line.length)

theorem readLineCreations_le (hv : v.TakesAtMost n) (hn : 0 < n) (o : ReadingOptions)
    (w : Workspace) (line : String) :
    readLineCreations o v w line ≤ (n + 1) ^ (line.length + 1) := by
  rw [readLineCreations]
  by_cases hignored : o.ignores (.ofList (Text.trim line.toList)) = true
  · exact (if_pos hignored).trans_le (Nat.zero_le _)
  refine (if_neg hignored).trans_le ?_
  cases hfirst : v.firstMatch (.ofList (Text.trim line.toList)) with
  | none => exact Nat.zero_le _
  | some found =>
    obtain ⟨form, c⟩ := found
    have htrim : (String.ofList (Text.trim line.toList)).length ≤ line.length := by
      rw [String.length_ofList, ← String.length_toList]
      exact Text.length_trim_le line.toList
    exact (buildCreations_le hv hn (Vocabulary.of_firstMatch hfirst).1 w _ c).trans
      (Nat.pow_le_pow_right n.succ_pos (Nat.succ_le_succ htrim))

/-- Each line of a document creates at most a number of blocks that its length bounds. -/
theorem readDocumentCreations_le (hv : v.TakesAtMost n) (hn : 0 < n) (o : ReadingOptions)
    (w : Workspace) (text : String) :
    readDocumentCreations o v w text ≤
      ((Text.documentLines text.toList).map fun line => (n + 1) ^ (line.length + 1)).sum := by
  rw [readDocumentCreations]
  induction Text.documentLines text.toList generalizing w with
  | nil => exact Nat.zero_le _
  | cons line lines ih =>
    rw [List.map_cons, List.map_cons, List.sum_cons, readLinesCreations]
    exact Nat.add_le_add (String.length_ofList (l := line) ▸ readLineCreations_le hv hn o w _) (ih _)

theorem readAsCreations_le (hv : v.TakesAtMost n) (hn : 0 < n) (w : Workspace)
    (text name : String) : readAsCreations v w text name ≤ (n + 1) ^ (text.length + 1) := by
  rw [readAsCreations]
  cases hform : v.get name with
  | error => exact Nat.zero_le _
  | ok form =>
    have hmem : form ∈ v.forms := List.mem_of_find?_eq_some (Vocabulary.get_eq_ok_iff.1 hform)
    dsimp only
    cases form.matchIn text with
    | none => exact Nat.zero_le _
    | some c => exact buildCreations_le hv hn hmem w text c

end Workspace

end ScriptBlocks
