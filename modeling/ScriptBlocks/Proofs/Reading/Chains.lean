import ScriptBlocks.Proofs.Reading.Document
import ScriptBlocks.Proofs.Workspace.Downward

/-!
# How the blocks of a document hang together

Each block that a document became follows the one before it, if the connectors of the two allow it,
and nothing else keeps them apart. So the blocks fall into chains of neighbours, one more than there
are pairs whose connectors do not fit, and none of them hangs together with a block that was there
before.

## Main definitions

* `Workspace.Joins` — how a block hangs together with the next one
* `Workspace.IsWholeChain` — the statements of a chain, from its root on
* `Workspace.ChainsUp` — how all blocks of a document do

## Main statements

* `Workspace.Consistent.exists_chains` — blocks that join fall into chains
* `Workspace.readDocument_chainsUp` — in any workspace that commands can make, the blocks of a
  document do
-/

namespace ScriptBlocks.Workspace

/-- The second block follows the first if the connectors of the two allow it. Otherwise nothing
follows the first, and the second has no owner. -/
def Joins (w : Workspace) (first second : BlockId) : Prop :=
  ∃ a b, w.find? first = some a ∧ w.find? second = some b ∧
    if a.shape.hasNext && b.shape.hasPrevious then
      a.next = some second ∧ b.parent = some first
    else a.next = none ∧ b.parent = none

/-- The blocks are those of a chain, from one without an owner on. -/
def IsWholeChain (w : Workspace) (ids : List BlockId) : Prop :=
  ∃ head, ids.head? = some head ∧ w.parent? head = none ∧ w.chain head = ids

/-- The blocks that a document became are chained where their connectors allow it. -/
structure ChainsUp (w w' : Workspace) (outcome : Outcome) : Prop where
  joins {first second : BlockId} :
    (first, second) ∈ outcome.blocks.zip outcome.blocks.tail → w'.Joins first second
  /-- The pairs of neighbours whose connectors do not fit. -/
  unlinked_eq : outcome.unlinked =
    (outcome.blocks.zip outcome.blocks.tail).countP fun e => !w'.canFollow e.1 e.2
  exists_chains : ∃ chains : List (List BlockId), chains.flatten = outcome.blocks ∧
    (∀ ids ∈ chains, w'.IsWholeChain ids) ∧
    chains.length = if outcome.blocks = [] then 0 else outcome.unlinked + 1
  chain_eq {first : BlockId} : outcome.isClean = true → outcome.blocks.head? = some first →
    w'.chain first = outcome.blocks
  fresh {id : BlockId} : id ∈ outcome.blocks → w.contains id = false ∧ w'.contains id = true
  /-- No link leads from an old block to a new one, and none from a new block to an old one. -/
  apart {old new : BlockId} : w.contains old = true → w.contains new = false →
    (new ∉ w'.childrenOf old ∧ ¬ w'.Above old new) ∧ old ∉ w'.childrenOf new ∧ ¬ w'.Above new old

variable {w w' : Workspace} {a c x first : BlockId} {b child : Block}
  {pairs : List (BlockId × BlockId)} {ids rest : List BlockId}

/-! ### What links change -/

section

variable {α : Type} (g : Block → α)

/-- What no pair changes is as it was. -/
theorem linkedAll_eq_of_kept (h : ∀ e ∈ pairs, ∀ b, g (linked e.1 e.2 x b) = g b) (b : Block) :
    g (linkedAll pairs x b) = g b := by
  induction pairs generalizing b with
  | nil => rfl
  | cons e pairs ih =>
    obtain ⟨hkept, hpairs⟩ := List.forall_mem_cons.1 h
    rw [linkedAll, List.foldl_cons]
    exact (ih hpairs _).trans (hkept b)

/-- What one pair sets and no pair with another key changes is what that pair has set. -/
theorem linkedAll_eq_of_set {y : α} {e : BlockId × BlockId} (key : BlockId × BlockId → BlockId)
    (hnodup : (pairs.map key).Nodup) (hmem : e ∈ pairs) (hset : ∀ b, g (linked e.1 e.2 x b) = y)
    (hkept : ∀ e', key e' ≠ key e → ∀ b, g (linked e'.1 e'.2 x b) = g b) (b : Block) :
    g (linkedAll pairs x b) = y := by
  induction pairs generalizing b with
  | nil => exact absurd hmem List.not_mem_nil
  | cons e' pairs ih =>
    obtain ⟨hnot, hnodup⟩ := List.nodup_cons.1 hnodup
    rw [linkedAll, List.foldl_cons]
    rcases List.mem_cons.1 hmem with rfl | hmem
    · have hlater : ∀ e' ∈ pairs, ∀ b, g (linked e'.1 e'.2 x b) = g b := fun e' he' =>
        hkept e' fun heq => hnot (List.mem_map.2 ⟨e', he', heq⟩)
      exact (linkedAll_eq_of_kept g hlater _).trans (hset b)
    · exact ih hnodup hmem _

end

theorem next_linkedAll_of_not_mem (h : ∀ e ∈ pairs, e.1 ≠ x) (b : Block) :
    (linkedAll pairs x b).next = b.next :=
  linkedAll_eq_of_kept Block.next (fun e he _ => if_neg (h e he).symm) b

theorem parent_linkedAll_of_not_mem (h : ∀ e ∈ pairs, e.2 ≠ x) (b : Block) :
    (linkedAll pairs x b).parent = b.parent :=
  linkedAll_eq_of_kept Block.parent (fun e he _ => if_neg (h e he).symm) b

theorem next_linkedAll_of_mem (hnodup : (pairs.map Prod.fst).Nodup) (h : (a, c) ∈ pairs)
    (b : Block) : (linkedAll pairs a b).next = some c :=
  linkedAll_eq_of_set Block.next Prod.fst hnodup h (fun _ => if_pos rfl)
    (fun _ hne _ => if_neg hne.symm) b

theorem parent_linkedAll_of_mem (hnodup : (pairs.map Prod.snd).Nodup) (h : (a, c) ∈ pairs)
    (b : Block) : (linkedAll pairs c b).parent = some a :=
  linkedAll_eq_of_set Block.parent Prod.snd hnodup h (fun _ => if_pos rfl)
    (fun _ hne _ => if_neg hne.symm) b

@[simp] theorem shape_linkedAll (pairs : List (BlockId × BlockId)) (x : BlockId) (b : Block) :
    (linkedAll pairs x b).shape = b.shape :=
  linkedAll_eq_of_kept Block.shape (fun _ _ _ => rfl) b

theorem canFollow_alter_linkedAll (w : Workspace) (pairs : List (BlockId × BlockId))
    (first second : BlockId) :
    (w.alter (linkedAll pairs)).canFollow first second = w.canFollow first second := by
  simp only [canFollow, find?_alter, Option.any_map, shape_linkedAll]

/-- Once the pairs that can be linked are, the blocks of each pair join. -/
theorem Linkable.joins (h : w.Linkable pairs) (hmem : (a, c) ∈ pairs) :
    (w.alter (linkedAll (pairs.filter fun e => w.canFollow e.1 e.2))).Joins a c := by
  obtain ⟨b, hb, hnext⟩ := h.next_eq_none hmem
  obtain ⟨child, hc, hroot⟩ := h.parent_eq_none hmem
  have hlinks := h.sublist (List.filter_sublist (p := fun e => w.canFollow e.1 e.2))
  refine ⟨_, _, by rw [find?_alter, hb, Option.map_some], by rw [find?_alter, hc, Option.map_some],
    ?_⟩
  have hfollow : w.canFollow a c = (b.shape.hasNext && child.shape.hasPrevious) := by
    rw [canFollow, hb, hc, Option.any_some, Option.any_some]
  rw [shape_linkedAll, shape_linkedAll, ← hfollow]
  by_cases hfit : w.canFollow a c = true
  · have hlink : (a, c) ∈ pairs.filter fun e => w.canFollow e.1 e.2 :=
      List.mem_filter.2 ⟨hmem, hfit⟩
    rw [if_pos hfit]
    exact ⟨next_linkedAll_of_mem hlinks.nodup_fst hlink _,
      parent_linkedAll_of_mem hlinks.nodup_snd hlink _⟩
  · -- the two blocks stand in no other pair at these places
    have hfst : ∀ e ∈ pairs.filter fun e => w.canFollow e.1 e.2, e.1 ≠ a := by
      intro e he heq
      obtain ⟨he, hlinked⟩ := List.mem_filter.1 he
      obtain rfl := List.inj_on_of_nodup_map h.nodup_fst he hmem heq
      exact hfit hlinked
    have hsnd : ∀ e ∈ pairs.filter fun e => w.canFollow e.1 e.2, e.2 ≠ c := by
      intro e he heq
      obtain ⟨he, hlinked⟩ := List.mem_filter.1 he
      obtain rfl := List.inj_on_of_nodup_map h.nodup_snd he hmem heq
      exact hfit hlinked
    rw [if_neg hfit, next_linkedAll_of_not_mem hfst, parent_linkedAll_of_not_mem hsnd]
    exact ⟨hnext, hroot⟩

/-! ### Chains -/

theorem Joins.cases (h : w.Joins a c) :
    w.canFollow a c = true ∧ (∃ b, w.find? a = some b ∧ b.next = some c) ∨
      w.canFollow a c = false ∧ (∃ b, w.find? a = some b ∧ b.next = none) ∧
        w.parent? c = none := by
  obtain ⟨b, child, hb, hc, hlinks⟩ := h
  rw [canFollow, hb, hc, Option.any_some, Option.any_some]
  by_cases hfit : (b.shape.hasNext && child.shape.hasPrevious) = true
  · rw [if_pos hfit] at hlinks
    exact .inl ⟨hfit, b, rfl, hlinks.1⟩
  · rw [if_neg hfit] at hlinks
    exact .inr ⟨Bool.eq_false_iff.2 hfit, ⟨b, rfl, hlinks.1⟩, (parent?_of_find? hc).trans hlinks.2⟩

theorem Consistent.isWholeChain (hw : w.Consistent) (hb : w.find? x = some b)
    (hroot : w.parent? x = none) : w.IsWholeChain (w.chain x) := by
  refine ⟨x, ?_, hroot, rfl⟩
  rw [hw.chain_eq hb]
  rfl

/-- Blocks of which each joins the next one fall into the chain of the first and chains that begin
with a root, one for each pair that is not linked. -/
theorem Consistent.exists_chains (hw : w.Consistent)
    (hjoins : ∀ e ∈ (first :: rest).zip rest, w.Joins e.1 e.2)
    (hlast : ∀ id, (first :: rest).getLast? = some id → ∃ b, w.find? id = some b ∧ b.next = none) :
    ∃ chains : List (List BlockId), w.chain first ++ chains.flatten = first :: rest ∧
      (∀ ids ∈ chains, w.IsWholeChain ids) ∧
      chains.length = ((first :: rest).zip rest).countP fun e => !w.canFollow e.1 e.2 := by
  induction rest generalizing first with
  | nil =>
    obtain ⟨b, hb, hnext⟩ := hlast first rfl
    refine ⟨[], ?_, by simp, rfl⟩
    rw [hw.chain_eq hb, hnext]
    rfl
  | cons second rest ih =>
    rw [List.zip_cons_cons] at hjoins ⊢
    obtain ⟨hjoin, hjoins⟩ := List.forall_mem_cons.1 hjoins
    rw [List.getLast?_cons_cons] at hlast
    obtain ⟨chains, hflatten, hwhole, hlength⟩ := ih hjoins hlast
    rw [List.countP_cons]
    rcases hjoin.cases with ⟨hfollow, b, hb, hnext⟩ | ⟨hfollow, ⟨b, hb, hnext⟩, hroot⟩
    · refine ⟨chains, ?_, hwhole, by simp [hfollow, hlength]⟩
      rw [hw.chain_eq hb, hnext, Option.map_some, Option.getD_some, List.cons_append, hflatten]
    · -- the chain of the second block is one more
      obtain ⟨-, child, -, hc, -⟩ := hjoin
      refine ⟨w.chain second :: chains, ?_, ?_, by simp [hfollow, hlength]⟩
      · rw [hw.chain_eq hb, hnext, List.flatten_cons, hflatten]
        rfl
      · exact List.forall_mem_cons.2 ⟨hw.isWholeChain hc hroot, hwhole⟩

/-- Blocks that were linked with their neighbours keep their links free at both ends. -/
theorem Linkable.free_ends (h : w.Linkable (ids.zip ids.tail)) (hsorted : ids.Pairwise (· < ·))
    (hloose : ∀ id ∈ ids, w.IsLoose id) (hsub : pairs.Sublist (ids.zip ids.tail)) :
    (∀ id, ids.head? = some id → (w.alter (linkedAll pairs)).parent? id = none) ∧
      ∀ id, ids.getLast? = some id →
        ∃ b, (w.alter (linkedAll pairs)).find? id = some b ∧ b.next = none := by
  constructor
  · intro id hid
    obtain ⟨rest, rfl⟩ := List.head?_eq_some_iff.1 hid
    obtain ⟨b, hb, hroot, -⟩ := hloose id List.mem_cons_self
    have hsnd : ∀ e ∈ pairs, e.2 ≠ id := fun e he =>
      Nat.ne_of_gt ((List.pairwise_cons.1 hsorted).1 _ (List.of_mem_zip (hsub.mem he)).2)
    rw [parent?, find?_alter, hb, Option.map_some, Option.bind_some,
      parent_linkedAll_of_not_mem hsnd, hroot]
  · intro id hid
    obtain ⟨init, rfl⟩ := List.getLast?_eq_some_iff.1 hid
    obtain ⟨b, hb, -, hnext⟩ := hloose id (List.mem_append_right _ (List.mem_singleton_self id))
    have hle : ∀ x ∈ init ++ [id], x ≤ id := by
      intro x hx
      rcases List.mem_append.1 hx with hx | hx
      · exact Nat.le_of_lt ((List.pairwise_append.1 hsorted).2.2 x hx id (List.mem_singleton_self id))
      · exact Nat.le_of_eq (List.mem_singleton.1 hx)
    -- the second block of a pair is younger than the first, and none is younger than the last
    have hfst : ∀ e ∈ pairs, e.1 ≠ id := by
      intro e he heq
      have hlt : id < e.2 := heq ▸ h.lt (hsub.mem he)
      exact Nat.not_lt.2 (hle e.2 (List.mem_of_mem_tail (List.of_mem_zip (hsub.mem he)).2)) hlt
    exact ⟨_, by rw [find?_alter, hb, Option.map_some],
      (next_linkedAll_of_not_mem hfst b).trans hnext⟩

/-- Roots and what is chained to them fall into whole chains, one more than there are pairs of
neighbours that are not linked. -/
theorem Consistent.exists_whole_chains (hw : w.Consistent) (hids : ∀ id ∈ ids, w.contains id = true)
    (hjoins : ∀ e ∈ ids.zip ids.tail, w.Joins e.1 e.2)
    (hhead : ∀ id, ids.head? = some id → w.parent? id = none)
    (hlast : ∀ id, ids.getLast? = some id → ∃ b, w.find? id = some b ∧ b.next = none) :
    ∃ chains : List (List BlockId), chains.flatten = ids ∧ (∀ c ∈ chains, w.IsWholeChain c) ∧
      chains.length = if ids = [] then 0 else
        ((ids.zip ids.tail).countP fun e => !w.canFollow e.1 e.2) + 1 := by
  cases ids with
  | nil => exact ⟨[], rfl, by simp, rfl⟩
  | cons first rest =>
    obtain ⟨b, hb⟩ := contains_iff_find?.1 (hids first List.mem_cons_self)
    obtain ⟨chains, hflatten, hwhole, hlength⟩ := hw.exists_chains hjoins hlast
    refine ⟨w.chain first :: chains, hflatten, List.forall_mem_cons.2 ⟨?_, hwhole⟩, ?_⟩
    · exact hw.isWholeChain hb (hhead first rfl)
    · rw [List.length_cons, hlength]
      rfl

/-- A single whole chain is the chain of its first block. -/
theorem chain_eq_of_single {chains : List (List BlockId)} (hflatten : chains.flatten = ids)
    (hwhole : ∀ c ∈ chains, w.IsWholeChain c) (hlength : chains.length = 1)
    (hfirst : ids.head? = some first) : w.chain first = ids := by
  obtain ⟨ids', rfl⟩ := List.length_eq_one_iff.1 hlength
  rw [List.flatten_singleton] at hflatten
  obtain ⟨head, hhead, -, hchain⟩ := hwhole ids' List.mem_cons_self
  rw [hflatten, hfirst] at hhead
  rw [Option.some.inj hhead, hchain, hflatten]

/-- No link leads from the blocks that were there to those that were planted, or back. -/
theorem Extends.apart (hw : w.Consistent) (h : w.Extends w') (hold : w.contains a = true)
    (hnew : w.contains c = false) :
    (c ∉ w'.childrenOf a ∧ ¬ w'.Above a c) ∧ a ∉ w'.childrenOf c ∧ ¬ w'.Above c a := by
  have hcut := h.cutAt hw
  have hbeyond (hc : w'.contains c = true) : w.lastId < c := by
    refine Nat.not_le.1 fun hle => ?_
    rw [contains_iff_find?, h.find?_eq hle, ← contains_iff_find?, hnew] at hc
    exact nomatch hc
  have hdown {x : BlockId} (hx : w.lastId < x) (habove : w'.Above a x) : w.lastId < a := by
    induction habove with
    | single hparent => exact hcut.lt_of_parent? hx hparent
    | tail _ hparent ih => exact ih (hcut.lt_of_parent? hx hparent)
  have hnone : ¬ w'.Above a c := fun habove =>
    Nat.not_lt.2 (hw.le_lastId hold) (hdown (hbeyond habove.contains_right) habove)
  have hnone' : ¬ w'.Above c a := by
    intro habove
    have hle := h.le_lastId_of_above hw habove (hw.le_lastId hold)
    exact Nat.not_lt.2 hle (hbeyond (h.consistent.contains_left habove))
  exact ⟨⟨fun hmem => hnone (.single (h.consistent.mem_children.1 hmem)), hnone⟩,
    fun hmem => hnone' (.single (h.consistent.mem_children.1 hmem)), hnone'⟩

/-- New blocks without links that are linked with their neighbours are chained up. -/
theorem Plants.chainsUp {w₁ : Workspace} {outcome : Outcome} (hw : w.Consistent)
    (h : w.Plants w₁ outcome.blocks) (hloose : ∀ id ∈ outcome.blocks, w₁.IsLoose id)
    (hlink : appendPairs (outcome.blocks.zip outcome.blocks.tail) w₁ = (outcome.unlinked, w'))
    (h' : w.Plants w' outcome.blocks) : w.ChainsUp w' outcome := by
  have hlinkable := h.consistent.linkable_zip_tail h.sorted hloose
  obtain ⟨hunlinked, hafter⟩ := Prod.mk.inj (hlinkable.appendPairs_eq.symm.trans hlink)
  have hjoins : ∀ e ∈ outcome.blocks.zip outcome.blocks.tail, w'.Joins e.1 e.2 :=
    fun e he => hafter ▸ hlinkable.joins he
  have hcount : outcome.unlinked =
      (outcome.blocks.zip outcome.blocks.tail).countP fun e => !w'.canFollow e.1 e.2 := by
    simp only [← hunlinked, ← hafter, canFollow_alter_linkedAll]
  obtain ⟨hhead, hlast⟩ := hlinkable.free_ends h.sorted hloose List.filter_sublist
  rw [hafter] at hhead hlast
  obtain ⟨chains, hflatten, hwhole, hlength⟩ :=
    h'.consistent.exists_whole_chains (fun _ => h'.contains_of_mem) hjoins hhead hlast
  rw [← hcount] at hlength
  refine ⟨hjoins _, hcount, ⟨chains, hflatten, hwhole, hlength⟩, ?_, fun {id} hid => ?_,
    h'.toExtends.apart hw⟩
  · intro first hclean hfirst
    have hunlinked : outcome.unlinked = 0 := by
      rw [Outcome.isClean, Bool.and_eq_true, decide_eq_true_iff] at hclean
      exact hclean.2
    have hne : outcome.blocks ≠ [] := by
      intro hnil
      rw [hnil] at hfirst
      exact nomatch hfirst
    rw [if_neg hne, hunlinked] at hlength
    exact chain_eq_of_single hflatten hwhole hlength hfirst
  · refine ⟨?_, h'.contains_of_mem hid⟩
    exact Bool.eq_false_iff.2 (hw.not_contains_of_lastId_lt (h'.lt_of_mem hid))

/-- In a workspace that commands have made, the blocks that a document becomes are chained where
their connectors allow it. -/
theorem readDocument_chainsUp (commands : List Command) (o : ReadingOptions) (v : Vocabulary)
    (text : String)
    (hroom : (∅ : Workspace).creations (commands ++ [.readDocument o v text]) < wordLimit) :
    let w := (∅ : Workspace).run commands
    w.ChainsUp (w.readDocument o v text).2 (w.readDocument o v text).1 := by
  intro w
  obtain ⟨hw, hroom⟩ := ready_of_creations hroom
  obtain ⟨hplants', -⟩ := readDocument_spec (o := o) (v := v) hw text hroom
  obtain ⟨hplants, -⟩ := readLines_spec hw ((Text.documentLines text.toList).map String.ofList) hroom
  have hloose := isLoose_of_readLines hw hroom
  -- the blocks are linked once all lines are read
  rcases hread : readLines o v ((Text.documentLines text.toList).map String.ofList) w with
    ⟨results, w₁⟩
  rcases hlink : linkAll (Outcome.ofResults results 0).blocks w₁ with ⟨unlinked, w'⟩
  have hdocument : w.readDocument o v text = (.ofResults results unlinked, w') := by
    rw [readDocument, hread]
    simp only [hlink]
  rw [hdocument] at hplants' ⊢
  rw [hread, ← Outcome.blocks_ofResults results unlinked] at hplants hloose
  exact hplants.chainsUp hw hloose ((linkAll_eq_appendPairs _ _).symm.trans hlink) hplants'

/-- A handler in the middle, which follows nothing, and an expression at the end. Beside them stands
a statement that was there before. -/
theorem readDocument_chainsUp_of_three_chains :
    let commands : List Command := [.create Dialect.vocabulary "variables_set" ∅]
    let text := "x = 1\ndef on_start():\ny = 2\n???\nz = x\nx > 1"
    (∅ : Workspace).creations (commands ++ [.readDocument {} Dialect.vocabulary text]) < wordLimit ∧
      let w := (∅ : Workspace).run commands
      let r := w.readDocument {} Dialect.vocabulary text
      r.1 = ⟨[2, 4, 5, 7, 9], [4], [], 2⟩ ∧ w.ChainsUp r.2 r.1 := by
  intro commands text
  have hroom : (∅ : Workspace).creations
      (commands ++ [.readDocument {} Dialect.vocabulary text]) < wordLimit :=
    creations_readDocument_lt Dialect.takesAtMost_vocabulary Nat.two_pos (by decide)
  exact ⟨hroom, by decide +kernel, readDocument_chainsUp commands {} Dialect.vocabulary text hroom⟩

end ScriptBlocks.Workspace
