import ScriptBlocks.Proofs.Run

/-!
# Reading accounts for every line

Each line of a document that is not ignorable is reported once: as a line that no form matches, as a
failure, or by the block that it became. Apart from the blocks reported, with what hangs beneath
them, the workspace is as it was.

## Main definitions

* `lineAt` — the lines of a document by their numbers
* `Outcome.Covers` — every line is reported, and rightly
* `Workspace.OnlyAdds` — nothing but new trees was added

## Main statements

* `Workspace.readDocument_accounts` — reading does just that, in any workspace that commands can make
-/

namespace ScriptBlocks

/-- The entry with a number, where numbers start at 1. -/
def entryAt {α : Type} (l : List α) : Nat → Option α
  | 0 => none
  | n + 1 => l[n]?

/-- The line of a document with a number, without the blanks around it. -/
def lineAt (text : String) (n : Nat) : Option String :=
  (entryAt (Text.documentLines text.toList) n).map fun line => String.ofList (Text.trim line)

theorem mem_zipIdx_one {α : Type} {l : List α} {a : α} {n : Nat} :
    (a, n) ∈ l.zipIdx 1 ↔ entryAt l n = some a := by
  rw [List.mk_mem_zipIdx_iff_le_and_getElem?_sub]
  cases n with
  | zero => exact iff_of_false (fun h => absurd h.1 (Nat.not_succ_le_zero 0)) nofun
  | succ n => exact and_iff_right (Nat.le_add_left 1 n)

theorem sorted_zipIdx {α : Type} (l : List α) (k : Nat) :
    (l.zipIdx k).Pairwise fun x y => x.2 < y.2 := by
  rw [← List.pairwise_map, List.zipIdx_map_snd]
  exact List.pairwise_lt_range'

/-- What is selected from the entries of a list keeps their order. -/
theorem sorted_filterMap_zipIdx {α β : Type} {f : α × Nat → Option β} {key : β → Nat}
    (hkey : ∀ x y, f x = some y → key y = x.2) (l : List α) (k : Nat) :
    (((l.zipIdx k).filterMap f).map key).Pairwise (· < ·) := by
  refine List.pairwise_map.2 (List.pairwise_filterMap.2 ?_)
  refine (sorted_zipIdx l k).imp fun {x x'} hxx y hy y' hy' => ?_
  rw [hkey x y hy, hkey x' y' hy']
  exact hxx

/-- Lists that go together entry by entry do so at every number. -/
theorem entryAt_of_forall₂ {α β : Type} {R : α → β → Prop} {l : List α} {l' : List β}
    (h : List.Forall₂ R l l') (n : Nat) : entryAt l n = none ∧ entryAt l' n = none ∨
      ∃ a b, entryAt l n = some a ∧ entryAt l' n = some b ∧ R a b := by
  cases n with
  | zero => exact .inl ⟨rfl, rfl⟩
  | succ n =>
    rw [entryAt, entryAt]
    induction h generalizing n with
    | nil => exact .inl ⟨rfl, rfl⟩
    | cons hR _ ih =>
      cases n with
      | zero => exact .inr ⟨_, _, rfl, rfl, hR⟩
      | succ n => exact ih n

namespace Outcome

/-- The lines that became blocks, with the blocks. -/
def builtLines (results : List LineResult) : List (Nat × BlockId) :=
  (results.zipIdx 1).filterMap fun
    | (.built id, n) => some (n, id)
    | _ => none

variable {results : List LineResult} {unlinked n : Nat}

theorem mem_builtLines {id : BlockId} :
    (n, id) ∈ builtLines results ↔ entryAt results n = some (.built id) := by
  rw [builtLines, List.mem_filterMap, ← mem_zipIdx_one]
  constructor
  · rintro ⟨⟨_ | _ | _ | _, m⟩, hmem, heq⟩
    · exact nomatch heq
    · exact nomatch heq
    · exact nomatch heq
    · cases heq
      exact hmem
  · intro h
    exact ⟨_, h, rfl⟩

theorem mem_unmatched :
    n ∈ (ofResults results unlinked).unmatched ↔ entryAt results n = some .unmatched := by
  rw [ofResults, List.mem_filterMap, ← mem_zipIdx_one]
  constructor
  · rintro ⟨⟨_ | _ | _ | _, m⟩, hmem, heq⟩
    · exact nomatch heq
    · cases heq
      exact hmem
    · exact nomatch heq
    · exact nomatch heq
  · intro h
    exact ⟨_, h, rfl⟩

theorem mem_failures {x : LineFailure} : x ∈ (ofResults results unlinked).failures ↔
    entryAt results x.line = some (.failed x.form x.error) := by
  rw [ofResults, List.mem_filterMap, ← mem_zipIdx_one]
  constructor
  · rintro ⟨⟨_ | _ | _ | _, m⟩, hmem, heq⟩
    · exact nomatch heq
    · exact nomatch heq
    · cases heq
      exact hmem
    · exact nomatch heq
  · intro h
    exact ⟨_, h, rfl⟩

theorem map_snd_builtLines :
    (builtLines results).map Prod.snd = (ofResults results unlinked).blocks := by
  rw [blocks_ofResults, builtLines, List.map_filterMap]
  conv_rhs => rw [← List.zipIdx_map_fst 1 results, List.filterMap_map]
  refine congrArg (fun f => List.filterMap f _) (funext fun ⟨result, n⟩ => ?_)
  cases result <;> rfl

theorem sorted_builtLines : ((builtLines results).map Prod.fst).Pairwise (· < ·) := by
  refine sorted_filterMap_zipIdx (fun ⟨result, n⟩ y h => ?_) results 1
  cases result with
  | built id =>
    cases h
    rfl
  | _ => exact nomatch h

theorem sorted_unmatched : (ofResults results unlinked).unmatched.Pairwise (· < ·) := by
  rw [← List.map_id (ofResults results unlinked).unmatched]
  refine sorted_filterMap_zipIdx (fun ⟨result, n⟩ y h => ?_) results 1
  cases result with
  | unmatched =>
    cases h
    rfl
  | _ => exact nomatch h

theorem sorted_failures :
    ((ofResults results unlinked).failures.map LineFailure.line).Pairwise (· < ·) := by
  refine sorted_filterMap_zipIdx (fun ⟨result, n⟩ y h => ?_) results 1
  cases result with
  | failed form error =>
    cases h
    rfl
  | _ => exact nomatch h

/-- Every line that is not ignorable is reported once, and what is reported of a line is so. -/
structure Covers (outcome : Outcome) (o : ReadingOptions) (v : Vocabulary) (text : String)
    (w' : Workspace) (built : List (Nat × BlockId)) : Prop where
  /-- The blocks are reported in the order of their lines. -/
  blocks_eq : built.map Prod.snd = outcome.blocks
  sorted : (built.map Prod.fst).Pairwise (· < ·)
  /-- The three reports of a line number together. -/
  count_eq (n : Nat) : (built.map Prod.fst).count n + outcome.unmatched.count n +
    (outcome.failures.map LineFailure.line).count n =
      if (lineAt text n).any fun line => !o.ignores line then 1 else 0
  of_built {n : Nat} {id : BlockId} : (n, id) ∈ built → ∃ line f c b, lineAt text n = some line ∧
    v.firstMatch line = some (f, c) ∧ w'.find? id = some b ∧ b.form = f.name
  of_unmatched {n : Nat} : n ∈ outcome.unmatched →
    ∃ line, lineAt text n = some line ∧ v.firstMatch line = none
  of_failure {x : LineFailure} : x ∈ outcome.failures → ∃ line f c,
    lineAt text x.line = some line ∧ v.firstMatch line = some (f, c) ∧ f.name = x.form

theorem covers_of_accounts {o : ReadingOptions} {v : Vocabulary} {text : String} {w' : Workspace}
    (haccounts : List.Forall₂ (fun line => Workspace.Accounts o v w'
      (String.ofList (Text.trim line.toList)))
      ((Text.documentLines text.toList).map String.ofList) results) :
    (ofResults results unlinked).Covers o v text w' (builtLines results) := by
  rw [List.forall₂_map_left_iff] at haccounts
  simp only [String.toList_ofList] at haccounts
  -- What stands at a number in the document and in the results.
  have hat (n : Nat) : lineAt text n = none ∧ entryAt results n = none ∨
      ∃ line result, lineAt text n = some line ∧ entryAt results n = some result ∧
        Workspace.Accounts o v w' line result := by
    rcases entryAt_of_forall₂ haccounts n with ⟨hline, hresult⟩ | ⟨line, result, hline, hresult, h⟩
    · exact .inl ⟨by rw [lineAt, hline]; rfl, hresult⟩
    · exact .inr ⟨_, result, by rw [lineAt, hline]; rfl, hresult, h⟩
  have haccount {n : Nat} {result : LineResult} (h : entryAt results n = some result) :
      ∃ line, lineAt text n = some line ∧ Workspace.Accounts o v w' line result := by
    rcases hat n with ⟨-, hnone⟩ | ⟨line, result', hline, hresult, haccount⟩
    · exact nomatch hnone.symm.trans h
    · exact ⟨line, hline, Option.some.inj (hresult.symm.trans h) ▸ haccount⟩
  refine ⟨map_snd_builtLines, sorted_builtLines, fun n => ?_, fun {n id} h => ?_, fun {n} h => ?_,
    fun {x} h => ?_⟩
  · have hnodup {l : List Nat} (h : l.Pairwise (· < ·)) : l.Nodup := h.imp Nat.ne_of_lt
    rw [(hnodup sorted_builtLines).count, (hnodup sorted_unmatched).count,
      (hnodup sorted_failures).count]
    have hbuilt : n ∈ (builtLines results).map Prod.fst ↔
        ∃ id, entryAt results n = some (.built id) := by
      simp only [List.mem_map, Prod.exists, mem_builtLines, exists_and_right, exists_eq_right]
    have hfailed : n ∈ (ofResults results unlinked).failures.map LineFailure.line ↔
        ∃ form error, entryAt results n = some (.failed form error) := by
      simp only [List.mem_map, mem_failures]
      constructor
      · rintro ⟨x, hx, rfl⟩
        exact ⟨x.form, x.error, hx⟩
      · rintro ⟨form, error, h⟩
        exact ⟨⟨n, form, error⟩, h, rfl⟩
    classical
    simp only [hbuilt, hfailed, mem_unmatched]
    rcases hat n with ⟨hline, hresult⟩ | ⟨line, result, hline, hresult, haccount⟩
    · simp [hline, hresult]
    · cases result with
      | ignored => simp [hline, hresult, show o.ignores line = true from haccount]
      | unmatched => simp [hline, hresult, haccount.1]
      | failed => simp [hline, hresult, haccount.1]
      | built => simp [hline, hresult, haccount.1]
  · obtain ⟨line, hline, -, f, c, b, hmatch, hb, hform⟩ := haccount (mem_builtLines.1 h)
    exact ⟨line, f, c, b, hline, hmatch, hb, hform⟩
  · obtain ⟨line, hline, -, hmatch⟩ := haccount (mem_unmatched.1 h)
    exact ⟨line, hline, hmatch⟩
  · obtain ⟨line, hline, -, f, c, hmatch, hform⟩ := haccount (mem_failures.1 h)
    exact ⟨line, f, c, hline, hmatch, hform⟩

end Outcome

namespace Workspace

variable {w w' : Workspace} {ids : List BlockId}

/-- From `w` to `w'` nothing happened but that new blocks were added, `ids` and all that hangs
beneath them. -/
structure OnlyAdds (w w' : Workspace) (ids : List BlockId) : Prop where
  find?_eq {id : BlockId} {b : Block} : w.find? id = some b → w'.find? id = some b
  order_prefix : w.order <+: w'.order
  variableNames_eq : w'.variableNames = w.variableNames
  lastId_le : w.lastId ≤ w'.lastId
  sorted : ids.Pairwise (· < ·)
  fresh {id : BlockId} : id ∈ ids → w.contains id = false ∧ w'.contains id = true
  mem_descendants {id : BlockId} : w'.contains id = true → w.contains id = false →
    ∃ r ∈ ids, id ∈ w'.descendants r

/-- In an ordered list the small entries come first. -/
theorem filter_le_prefix {l : List Nat} (h : l.Pairwise (· < ·)) (k : Nat) :
    l.filter (· ≤ k) <+: l := by
  induction h with
  | nil => exact List.prefix_rfl
  | @cons a l hlt _ ih =>
    by_cases ha : a ≤ k
    · rw [List.filter_cons_of_pos (by simpa using ha)]
      exact (List.cons_prefix_cons.2 ⟨rfl, ih⟩)
    · rw [List.filter_cons_of_neg (by simpa using ha)]
      have hnone : l.filter (· ≤ k) = [] := by
        refine List.filter_eq_nil_iff.2 fun x hx => ?_
        have := hlt x hx
        simp only [decide_eq_true_eq]
        omega
      rw [hnone]
      exact List.nil_prefix

theorem Plants.onlyAdds (hw : w.Consistent) (h : w.Plants w' ids) : w.OnlyAdds w' ids where
  find?_eq hb := (h.find?_eq (hw.le_lastId (contains_of_find? hb))).trans hb
  order_prefix := by
    rw [← h.toExtends.order_eq hw]
    exact filter_le_prefix h.consistent.sorted w.lastId
  variableNames_eq := h.variableNames_eq
  lastId_le := h.lastId_le
  sorted := h.sorted
  fresh hid := by
    refine ⟨?_, h.contains_of_mem hid⟩
    exact Bool.eq_false_iff.2 (hw.not_contains_of_lastId_lt (h.lt_of_mem hid))
  mem_descendants {id} hnew hold := by
    have hlt : w.lastId < id := by
      refine Nat.not_le.1 fun hle => ?_
      rw [contains_iff_find?, h.find?_eq hle, ← contains_iff_find?, hold] at hnew
      exact nomatch hnew
    obtain ⟨r, hr, habove⟩ := h.exists_above hlt hnew
    exact ⟨r, hr, h.consistent.mem_descendants_iff.2 ⟨h.contains_of_mem hr, habove⟩⟩

/-- In a workspace that commands have made, reading a document reports every line that is not
ignorable once, and adds the trees of the lines that became blocks and nothing else. -/
theorem readDocument_accounts (commands : List Command) (o : ReadingOptions) (v : Vocabulary)
    (text : String)
    (hroom : (∅ : Workspace).creations (commands ++ [.readDocument o v text]) < wordLimit) :
    let w := (∅ : Workspace).run commands
    ∃ built, (w.readDocument o v text).1.Covers o v text (w.readDocument o v text).2 built ∧
      w.OnlyAdds (w.readDocument o v text).2 (w.readDocument o v text).1.blocks := by
  intro w
  rw [creations_append] at hroom
  have hroom' : (∅ : Workspace).Room (creations ∅ commands + readDocumentCreations o v w text) :=
    room_empty hroom
  obtain ⟨hw, hspends⟩ := consistent_run consistent_empty commands hroom'.left
  obtain ⟨hplants, ⟨results, unlinked, houtcome, haccounts⟩, -⟩ :=
    readDocument_spec (o := o) (v := v) hw text (hroom'.of_spends hspends)
  refine ⟨Outcome.builtLines results, ?_, hplants.onlyAdds hw⟩
  rw [houtcome]
  exact Outcome.covers_of_accounts haccounts

/-- A document with a line that becomes a block, a comment, a line that fails with most of its blocks
there, and a line that no form matches. -/
theorem readDocument_accounts_of_mixed :
    let text := "x = 1\n# note\ny = 1 + (a < b < c)\n???"
    (∅ : Workspace).creations ([] ++ [.readDocument {} Dialect.vocabulary text]) < wordLimit ∧
      let r := (∅ : Workspace).readDocument {} Dialect.vocabulary text
      (r.1.blocks, r.1.failures.map LineFailure.line, r.1.unmatched) = ([1], [3], [4]) ∧
        ∃ built, r.1.Covers {} Dialect.vocabulary text r.2 built ∧
          (∅ : Workspace).OnlyAdds r.2 r.1.blocks := by
  intro text
  have hroom : (∅ : Workspace).creations ([] ++ [.readDocument {} Dialect.vocabulary text]) <
      wordLimit :=
    creations_readDocument_lt Dialect.takesAtMost_vocabulary Nat.two_pos (by decide)
  exact ⟨hroom, by decide +kernel, readDocument_accounts [] {} Dialect.vocabulary text hroom⟩

end Workspace

end ScriptBlocks
