import ScriptBlocks.Proofs.Reading.Lines

/-!
# Lines that contribute nothing

A line that is passed over or goes to no form leaves no block and no failure. So a document whose
first line becomes a block gives just that block exactly if its other lines contribute nothing.

## Main definitions

* `ReadingOptions.IsSilent` — a line that contributes nothing

## Main statements

* `Workspace.readDocument_of_silent` — silent lines leave the block of the first line alone
* `Workspace.isSilent_of_readDocument` — where that is all, the lines are silent
-/

namespace ScriptBlocks

/-- The line is passed over, or it goes to no form. -/
def ReadingOptions.IsSilent (o : ReadingOptions) (v : Vocabulary) (line : String) : Prop :=
  o.ignores (.ofList (Text.trim line.toList)) = true ∨
    v.firstMatch (.ofList (Text.trim line.toList)) = none

/-- Nothing came of a line, and nothing is wrong with it. -/
def LineResult.IsSilent (result : LineResult) : Prop := result = .ignored ∨ result = .unmatched

namespace Outcome

variable {results : List LineResult} {unlinked : Nat}

theorem failures_eq_nil_iff : (ofResults results unlinked).failures = [] ↔
    ∀ form error, LineResult.failed form error ∉ results := by
  rw [ofResults, List.filterMap_eq_nil_iff]
  constructor
  · intro h form error hmem
    obtain ⟨n, hn⟩ := List.getElem?_of_mem hmem
    have hentry : (LineResult.failed form error, n + 1) ∈ results.zipIdx 1 := by
      rw [List.mk_mem_zipIdx_iff_le_and_getElem?_sub]
      exact ⟨Nat.le_add_left 1 n, hn⟩
    exact nomatch h _ hentry
  · rintro h ⟨_ | _ | ⟨form, error⟩ | _, n⟩ hmem
    · rfl
    · rfl
    · exact absurd (List.fst_mem_of_mem_zipIdx hmem) (h form error)
    · rfl

theorem blocks_of_silent (h : ∀ result ∈ results, result.IsSilent) (p : BlockId) :
    (ofResults (.built p :: results) unlinked).blocks = [p] := by
  have hnone : results.filterMap LineResult.block? = [] := by
    rw [List.filterMap_eq_nil_iff]
    intro result hmem
    rcases h result hmem with rfl | rfl <;> rfl
  have hfirst : LineResult.block? (.built p) = some p := rfl
  rw [blocks_ofResults, List.filterMap_cons_some hfirst, hnone]

theorem failures_of_silent (h : ∀ result ∈ results, result.IsSilent) (p : BlockId) :
    (ofResults (.built p :: results) unlinked).failures = [] := by
  rw [failures_eq_nil_iff]
  intro form error hmem
  rcases List.mem_cons.1 hmem with hmem | hmem
  · exact nomatch hmem
  · rcases h _ hmem with hmem | hmem <;> exact nomatch hmem

end Outcome

namespace Workspace

variable {o : ReadingOptions} {v : Vocabulary} {w w' : Workspace} {lines : List String}
  {first line text : String} {p : BlockId}

theorem readLine_of_isSilent (h : o.IsSilent v line) :
    ∃ result, w.readLine o v line = (result, w) ∧ result.IsSilent := by
  rw [readLine]
  rcases h with h | h
  · exact ⟨.ignored, by simp only [h, if_true], .inl rfl⟩
  · cases hignores : o.ignores (.ofList (Text.trim line.toList)) with
    | true => exact ⟨.ignored, by simp only [if_true], .inl rfl⟩
    | false => exact ⟨.unmatched, by simp only [h, Bool.false_eq_true, if_false], .inr rfl⟩

theorem readLines_of_silent (h : ∀ line ∈ lines, o.IsSilent v line) :
    ∃ results, readLines o v lines w = (results, w) ∧ ∀ result ∈ results, result.IsSilent := by
  induction lines with
  | nil => exact ⟨[], rfl, fun _ h => absurd h List.not_mem_nil⟩
  | cons line lines ih =>
    obtain ⟨hline, hlines⟩ := List.forall_mem_cons.1 h
    obtain ⟨result, hread, hsilent⟩ := readLine_of_isSilent (w := w) hline
    obtain ⟨results, hreads, hsilents⟩ := ih hlines
    refine ⟨result :: results, ?_, List.forall_mem_cons.2 ⟨hsilent, hsilents⟩⟩
    rw [readLines, hread]
    simp only [hreads]

/-- Behind a line that becomes a block, silent lines add nothing to the outcome. -/
theorem readDocument_of_silent
    (hlines : (Text.documentLines text.toList).map String.ofList = first :: lines)
    (hfirst : w.readLine o v first = (.built p, w')) (h : ∀ line ∈ lines, o.IsSilent v line) :
    ∃ unmatched, w.readDocument o v text =
      ({ blocks := [p], unmatched, failures := [], unlinked := 0 }, w') := by
  obtain ⟨results, hreads, hsilent⟩ := readLines_of_silent (w := w') h
  refine ⟨(Outcome.ofResults (.built p :: results) 0).unmatched, ?_⟩
  rw [readDocument, hlines, readLines, hfirst]
  simp only [hreads, Outcome.blocks_of_silent hsilent, linkAll]
  refine Prod.ext ?_ rfl
  have hblocks : (Outcome.ofResults (.built p :: results) 0).blocks = [p] :=
    Outcome.blocks_of_silent hsilent p
  have hfailures : (Outcome.ofResults (.built p :: results) 0).failures = [] :=
    Outcome.failures_of_silent hsilent p
  rw [← hblocks, ← hfailures]
  rfl

/-- Lines with which nothing is wrong, but of which nothing came, are silent. -/
theorem isSilent_of_accounts {results : List LineResult}
    (h : List.Forall₂ (fun line => Accounts o v w' (.ofList (Text.trim line.toList))) lines results)
    (hblocks : ∀ result ∈ results, result.block? = none)
    (hfailures : ∀ form error, LineResult.failed form error ∉ results) :
    ∀ line ∈ lines, o.IsSilent v line := by
  induction h with
  | nil => exact fun _ h => absurd h List.not_mem_nil
  | @cons line result lines results haccount _ ih =>
    obtain ⟨hblock, hblocks⟩ := List.forall_mem_cons.1 hblocks
    have hline : o.IsSilent v line := by
      cases result with
      | ignored => exact .inl haccount
      | unmatched => exact .inr haccount.2
      | failed form error => exact absurd List.mem_cons_self (hfailures form error)
      | built id => exact nomatch hblock
    have hlines := ih hblocks fun form error hmem =>
      hfailures form error (List.mem_cons_of_mem _ hmem)
    exact List.forall_mem_cons.2 ⟨hline, hlines⟩

/-- A document that becomes one block, that of its first line, and has no failures: its other lines
are silent. -/
theorem isSilent_of_readDocument (hw : w.Consistent)
    (hroom : w.Room (readDocumentCreations o v w text))
    (hlines : (Text.documentLines text.toList).map String.ofList = first :: lines)
    (hfirst : ¬ o.IsSilent v first) (hblocks : (w.readDocument o v text).1.blocks = [p])
    (hfailures : (w.readDocument o v text).1.failures = []) :
    ∀ line ∈ lines, o.IsSilent v line := by
  obtain ⟨-, ⟨results, unlinked, houtcome, haccounts⟩, -⟩ := readDocument_spec (o := o) (v := v)
    hw text hroom
  rw [houtcome, Outcome.blocks_ofResults] at hblocks
  rw [houtcome, Outcome.failures_eq_nil_iff] at hfailures
  rw [hlines] at haccounts
  obtain ⟨result, results, haccount, hrest, rfl⟩ := List.forall₂_cons_left_iff.1 haccounts
  -- the first line is not silent, so the one block is its own
  have hnone : results.filterMap LineResult.block? = [] := by
    cases result with
    | ignored => exact absurd (.inl haccount) hfirst
    | unmatched => exact absurd (.inr haccount.2) hfirst
    | failed form error => exact absurd List.mem_cons_self (hfailures form error)
    | built id =>
      have hid : LineResult.block? (.built id) = some id := rfl
      rw [List.filterMap_cons_some hid] at hblocks
      exact (List.cons.inj hblocks).2
  rw [List.filterMap_eq_nil_iff] at hnone
  apply isSilent_of_accounts hrest hnone
  intro form error hmem
  exact hfailures form error (List.mem_cons_of_mem _ hmem)

end Workspace

end ScriptBlocks
