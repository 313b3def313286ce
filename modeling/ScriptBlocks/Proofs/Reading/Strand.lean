import ScriptBlocks.Proofs.Dialect.Statement
import ScriptBlocks.Proofs.Reading.Linking

/-!
# Reading statements without slots

A document whose lines all go to faithful forms is read without a fault: each of the lines becomes
one block, and the blocks become one chain.

## Main definitions

* `Statement` — a form with the fields that are read for it
* `Workspace.Strand` — blocks that follow each other and are as new but for their links
* `Dialect.ReadsLines` — lines that go to faithful forms

## Main statements

* `Workspace.readDocument_statements` — what becomes of such lines
-/

namespace ScriptBlocks

/-- The block without its owner and without the statement after it. -/
def Block.unlinked (b : Block) : Block := { b with parent := none, next := none }

/-- A statement that is read off a line. -/
structure Statement where
  form : Form
  given : Fields

/-- The block that is built for the statement. -/
def Statement.block (s : Statement) (id : BlockId) : Block :=
  .ofTemplate id s.form.name s.form.template s.given

theorem Outcome.ofResults_of_built {results : List LineResult}
    (h : ∀ r ∈ results, r = .ignored ∨ ∃ id, r = .built id) (unlinked : Nat) :
    ofResults results unlinked =
      { blocks := results.filterMap LineResult.block?, unmatched := [], failures := [], unlinked } := by
  have hnone {α : Type} {f : LineResult × Nat → Option α} (hignored : ∀ n, f (.ignored, n) = none)
      (hbuilt : ∀ id n, f (.built id, n) = none) : (results.zipIdx 1).filterMap f = [] := by
    refine List.filterMap_eq_nil_iff.2 fun e he => ?_
    rcases h e.1 (List.fst_mem_of_mem_zipIdx he) with hr | ⟨id, hr⟩
    · rw [← hignored e.2, ← hr]
    · rw [← hbuilt id e.2, ← hr]
  have hunmatched : (ofResults results unlinked).unmatched = [] :=
    hnone (fun _ => rfl) (fun _ _ => rfl)
  have hfailures : (ofResults results unlinked).failures = [] :=
    hnone (fun _ => rfl) (fun _ _ => rfl)
  rw [← blocks_ofResults results unlinked, ← hunmatched, ← hfailures]
  rfl

/-! ### Lines -/

/-- Each line is passed over or goes to a faithful form. The statements are what is read off those
that are not passed over. -/
inductive Dialect.ReadsLines : List String → List Statement → Prop where
  | nil : ReadsLines [] []
  | ignored {line : String} {lines : List String} {ss : List Statement}
    (hline : ({} : ReadingOptions).ignores (.ofList (Text.trim line.toList)) = true)
    (h : ReadsLines lines ss) : ReadsLines (line :: lines) ss
  | read {line : String} {lines : List String} {s : Statement} {ss : List Statement}
    (hline : ReadsAs (.ofList (Text.trim line.toList)) s.form s.given)
    (hform : IsFaithful s.form) (h : ReadsLines lines ss) : ReadsLines (line :: lines) (s :: ss)

theorem Dialect.ReadsLines.length_le {lines : List String} {ss : List Statement}
    (h : ReadsLines lines ss) : ss.length ≤ lines.length := by
  induction h with
  | nil => exact Nat.le_refl 0
  | ignored hline h ih => exact Nat.le_succ_of_le ih
  | read hline hform h ih => exact Nat.succ_le_succ ih

theorem Dialect.ReadsLines.isFaithful {lines : List String} {ss : List Statement}
    (h : ReadsLines lines ss) : ∀ s ∈ ss, IsFaithful s.form := by
  induction h with
  | nil => exact fun _ hs => absurd hs List.not_mem_nil
  | ignored hline h ih => exact ih
  | read hline hform h ih => exact List.forall_mem_cons.2 ⟨hform, ih⟩

namespace Workspace

open Dialect

variable {w w' : Workspace} {a c id : BlockId} {b child : Block} {s : Statement} {ss : List Statement}
  {ids : List BlockId} {lines : List String}

/-- The new blocks are those of the statements, none of them linked yet. -/
structure Lays (w w' : Workspace) (ss : List Statement) : Prop extends Extends w w' where
  spends : w.Spends w' ss.length
  find?_new : List.Forall₂ (fun id s => w'.find? id = some (s.block id))
    (List.range' (w.lastId + 1) ss.length) ss

theorem readLine_statement {line : String} (hw : w.Consistent)
    (hline : ReadsAs (.ofList (Text.trim line.toList)) s.form s.given) (hform : IsFaithful s.form)
    (hroom : w.Room 1) : ∃ w', w.readLine {} vocabulary line = (.built (w.lastId + 1), w') ∧
      w.Lays w' [s] := by
  obtain ⟨hkept, c, hmatch, hread⟩ := hline
  have hcreate : w.create vocabulary s.form.name s.given =
      .ok (w.lastId + 1, w.addBlock (s.block (w.lastId + 1))) :=
    create_eq_ok.2 ⟨s.form, hform.get_eq, (succId_eq hroom).symm, rfl⟩
  obtain ⟨hbuilds, hspends, hfind⟩ := builds_create hw hform.get_eq hroom hcreate
  refine ⟨_, ?_, { hbuilds.toExtends with spends := hspends, find?_new := .cons hfind .nil }⟩
  rw [(readLine_of_match (w := w) rfl hkept hmatch hread).1, construct, hform.construction_eq]
  simp only [hcreate]

theorem Lays.cons {w₁ : Workspace} (h : w.Lays w₁ [s]) (h' : w₁.Lays w' ss) :
    w.Lays w' (s :: ss) where
  toExtends := h.toExtends.trans h'.toExtends
  spends := by
    have hspends := h.spends.trans h'.spends
    rwa [List.length_singleton, Nat.add_comm] at hspends
  find?_new := by
    have hid : w₁.lastId = w.lastId + 1 := h.spends
    obtain ⟨hnew, -⟩ := List.forall₂_cons.1 h.find?_new
    refine .cons ?_ (hid ▸ h'.find?_new)
    rw [h'.find?_eq (Nat.le_of_eq hid.symm), hnew]

/-- Each line that is not passed over becomes one block. -/
theorem readLines_statements (h : ReadsLines lines ss) (hw : w.Consistent)
    (hroom : w.Room ss.length) : ∃ results w', readLines {} vocabulary lines w = (results, w') ∧
      (∀ r ∈ results, r = .ignored ∨ ∃ id, r = .built id) ∧
      results.filterMap LineResult.block? = List.range' (w.lastId + 1) ss.length ∧
      w.Lays w' ss := by
  induction h generalizing w with
  | nil =>
    exact ⟨[], w, rfl, fun _ hr => absurd hr List.not_mem_nil, rfl,
      { Extends.refl hw with spends := Spends.zero w, find?_new := .nil }⟩
  | ignored hline h ih =>
    obtain ⟨results, w', hread, hresults, hblocks, hlays⟩ := ih hw hroom
    refine ⟨.ignored :: results, w', ?_, List.forall_mem_cons.2 ⟨.inl rfl, hresults⟩, hblocks, hlays⟩
    rw [readLines, readLine]
    simp only [hline, if_true, hread]
  | @read line lines s ss hline hform h ih =>
    have hone : w.Room (1 + ss.length) := by
      rwa [List.length_cons, Nat.add_comm] at hroom
    obtain ⟨w₁, hfirst, hlays₁⟩ := readLine_statement hw hline hform hone.left
    have hid : w₁.lastId = w.lastId + 1 := hlays₁.spends
    obtain ⟨results, w', hread, hresults, hblocks, hlays⟩ :=
      ih hlays₁.consistent (hone.of_spends hlays₁.spends)
    refine ⟨.built (w.lastId + 1) :: results, w', ?_,
      List.forall_mem_cons.2 ⟨.inr ⟨_, rfl⟩, hresults⟩, ?_, hlays₁.cons hlays⟩
    · rw [readLines, hfirst]
      simp only [hread]
    · rw [hid] at hblocks
      exact congrArg (List.cons (w.lastId + 1)) hblocks

/-! ### Chains -/

/-- The blocks follow each other, and nothing follows the last of them. They are the blocks of the
statements, as new but for their links. -/
inductive Strand (w : Workspace) : List BlockId → List Statement → Prop where
  | nil : Strand w [] []
  | cons {id : BlockId} {ids : List BlockId} {s : Statement} {ss : List Statement} {b : Block}
    (hb : w.find? id = some b) (hnext : b.next = ids.head?) (hnew : b.unlinked = s.block id)
    (h : Strand w ids ss) : Strand w (id :: ids) (s :: ss)

theorem Strand.mono (h : w.Strand ids ss) (hsame : ∀ id ∈ ids, ∀ b, w.find? id = some b →
    ∃ b', w'.find? id = some b' ∧ b'.next = b.next ∧ b'.unlinked = b.unlinked) :
    w'.Strand ids ss := by
  induction h with
  | nil => exact .nil
  | @cons id ids s ss b hb hnext hnew h ih =>
    obtain ⟨b', hb', hnext', hnew'⟩ := hsame id List.mem_cons_self b hb
    exact .cons hb' (hnext'.trans hnext) (hnew'.trans hnew)
      (ih fun id hid => hsame id (List.mem_cons_of_mem _ hid))

theorem Strand.contains (h : w.Strand ids ss) : ∀ id ∈ ids, w.contains id = true := by
  induction h with
  | nil => exact fun _ hid => absurd hid List.not_mem_nil
  | cons hb hnext hnew h ih => exact List.forall_mem_cons.2 ⟨contains_of_find? hb, ih⟩

theorem Strand.chainWithin_eq {n : Nat} (h : w.Strand (id :: ids) ss) (hn : ids.length < n) :
    w.chainWithin n id = id :: ids := by
  induction ids generalizing n id ss with
  | nil =>
    obtain ⟨n, rfl⟩ := Nat.exists_eq_succ_of_ne_zero (Nat.ne_of_gt hn)
    cases h with
    | cons hb hnext hnew h =>
      rw [chainWithin, hb]
      simp only [hnext, List.head?_nil]
  | cons next ids ih =>
    rw [List.length_cons] at hn
    obtain ⟨n, rfl⟩ := Nat.exists_eq_succ_of_ne_zero (n := n) (by omega)
    cases h with
    | cons hb hnext hnew h =>
      rw [chainWithin, hb]
      simp only [hnext, List.head?_cons]
      rw [ih h (Nat.lt_of_succ_lt_succ hn)]

theorem Strand.chain_eq (h : w.Strand (id :: ids) ss) (hnodup : (id :: ids).Nodup) :
    w.chain id = id :: ids :=
  h.chainWithin_eq (length_le_size hnodup h.contains)

namespace Consistent

variable (hw : w.Consistent)
include hw

theorem not_above_of_children_eq_nil (hc : w.find? c = some child) (hleaf : child.children = []) :
    ¬ w.Above c a := by
  intro h
  obtain ⟨d, hd, -⟩ := Relation.TransGen.head'_iff.1 h
  rw [← hw.mem_children, childrenOf_of_find? hc, hleaf] at hd
  exact List.not_mem_nil hd

theorem connectStatement_eq {p : BlockId} {slot : String} (hb : w.find? p = some b)
    (hslot : b.slots.find? slot = some (.statement none)) (hc : w.find? c = some child)
    (hroot : child.parent = none) (hprevious : child.shape.hasPrevious = true) (hne : c ≠ p)
    (habove : ¬ w.Above c p) :
    w.connectStatement p slot c = .ok ((w.fill p slot c).own p c) := by
  have hchild : w.admitChild p c = .ok () := (hw.admitChild_iff hc).2 ⟨hroot, hne, habove⟩
  exact connectStatement_eq_ok.2
    ⟨admitStatement_eq_ok.2 ⟨b, child, hb, hslot, hc, hprevious, hchild⟩, rfl⟩

/-- New statements are all chained to a first one that nothing follows yet. -/
theorem linkAll_strand (hb : w.find? id = some b) (hnext : b.next = none)
    (hnew : b.unlinked = s.block id)
    (hrest : List.Forall₂ (fun id s => w.find? id = some (s.block id)) ids ss)
    (hnodup : (id :: ids).Nodup)
    (hshape : ∀ s' ∈ s :: ss, s'.form.template.shape = .statement true true) :
    ∃ w', linkAll (id :: ids) w = (0, w') ∧ w'.Consistent ∧ w'.Strand (id :: ids) (s :: ss) ∧
      (∃ b', w'.find? id = some b' ∧ b'.parent = b.parent) ∧
      ∀ x ∉ id :: ids, w'.find? x = w.find? x := by
  induction ids generalizing w id b s ss with
  | nil =>
    cases hrest
    exact ⟨w, rfl, hw, .cons hb hnext hnew .nil, ⟨b, hb, rfl⟩, fun _ _ => rfl⟩
  | cons c ids ih =>
    obtain ⟨s', ss', hc, hrest', rfl⟩ := List.forall₂_cons_left_iff.1 hrest
    rw [List.forall_mem_cons] at hshape
    obtain ⟨hid, hnodup'⟩ := List.nodup_cons.1 hnodup
    have hne : c ≠ id := fun h => hid (h ▸ List.mem_cons_self)
    have hbshape : b.shape = .statement true true := by
      have hsame := congrArg Block.shape hnew
      exact hsame.trans hshape.1
    have hcshape : (s'.block c).shape = .statement true true := hshape.2 s' List.mem_cons_self
    obtain ⟨w₁, hw₁⟩ : ∃ w₁, w₁ = (w.modify id fun b => { b with next := some c }).own id c :=
      ⟨_, rfl⟩
    have happend : w.append id c = (true, w₁) := by
      have hfollow : w.canFollow id c = true := by
        rw [canFollow, hb, hc, Option.any_some, Option.any_some, hbshape, hcshape]
        rfl
      rw [hw.append_eq_ite hb hnext hc rfl hne
        (hw.not_above_of_children_eq_nil hc (Block.children_ofTemplate ..)), if_pos hfollow, hw₁,
        modify_own_eq_alter]
    have hfind (x : BlockId) : w₁.find? x = if x = c then
        (if x = id then (w.find? x).map fun b => { b with next := some c } else w.find? x).map
          fun b => { b with parent := some id }
        else if x = id then (w.find? x).map fun b => { b with next := some c } else w.find? x := by
      rw [hw₁, own, find?_modify, find?_modify]
    have hfirst : w₁.find? id = some { b with next := some c } := by
      rw [hfind, if_neg hne.symm, if_pos rfl, hb, Option.map_some]
    have hsecond : w₁.find? c = some { s'.block c with parent := some id } := by
      rw [hfind, if_pos rfl, if_neg hne, hc, Option.map_some]
    have hother {x : BlockId} (hxid : x ≠ id) (hxc : x ≠ c) : w₁.find? x = w.find? x := by
      rw [hfind, if_neg hxc, if_neg hxid]
    have hrest₁ : List.Forall₂ (fun id s => w₁.find? id = some (s.block id)) ids ss' := by
      rw [List.forall₂_iff_zip] at hrest' ⊢
      refine ⟨hrest'.1, fun hmem => ?_⟩
      have hx := (List.of_mem_zip hmem).1
      rw [hother (fun h => hid (h ▸ List.mem_cons_of_mem _ hx))
        fun h => (List.nodup_cons.1 hnodup').1 (h ▸ hx)]
      exact hrest'.2 hmem
    have hw' : w₁.Consistent := by
      have := hw.append id c
      rwa [happend] at this
    obtain ⟨w', hlink, hconsistent, hstrand, -, hsame⟩ :=
      ih hw' hsecond rfl rfl hrest₁ hnodup' hshape.2
    refine ⟨w', ?_, hconsistent, ?_, ?_, fun x hx => ?_⟩
    · rw [linkAll, happend]
      simp only [hlink, if_true]
    · exact .cons ((hsame id hid).trans hfirst) rfl hnew hstrand
    · exact ⟨_, (hsame id hid).trans hfirst, rfl⟩
    · rw [List.mem_cons, not_or] at hx
      rw [hsame x hx.2, hother hx.1 fun h => hx.2 (h ▸ List.mem_cons_self)]

end Consistent

/-- The lines become one chain of blocks. -/
theorem readDocument_statements {text : String}
    (h : ReadsLines ((Text.documentLines text.toList).map String.ofList) ss) (hw : w.Consistent)
    (hroom : w.Room ss.length) :
    ∃ w', w.readDocument {} vocabulary text =
        ({ blocks := List.range' (w.lastId + 1) ss.length, unmatched := [], failures := [],
           unlinked := 0 }, w') ∧
      w'.Consistent ∧ w.Spends w' ss.length ∧
      w'.Strand (List.range' (w.lastId + 1) ss.length) ss ∧
      ∀ id ∈ (List.range' (w.lastId + 1) ss.length).head?, w'.parent? id = none := by
  obtain ⟨results, w₁, hread, hresults, hblocks, hlays⟩ := readLines_statements h hw hroom
  obtain ⟨w', hlink, hw', hspends, hstrand, hroot⟩ : ∃ w',
      linkAll (List.range' (w.lastId + 1) ss.length) w₁ = (0, w') ∧ w'.Consistent ∧
        w₁.Spends w' 0 ∧ w'.Strand (List.range' (w.lastId + 1) ss.length) ss ∧
          ∀ id ∈ (List.range' (w.lastId + 1) ss.length).head?, w'.parent? id = none := by
    have hnodup : (List.range' (w.lastId + 1) ss.length).Nodup := List.nodup_range'
    have hspends := spends_linkAll (List.range' (w.lastId + 1) ss.length) w₁
    cases ss with
    | nil =>
      exact ⟨w₁, rfl, hlays.consistent, Spends.zero w₁, .nil, nofun⟩
    | cons s ss =>
      obtain ⟨hfirst, hrest⟩ := List.forall₂_cons.1 hlays.find?_new
      obtain ⟨w', hlink, hw', hstrand, ⟨b, hb, hroot⟩, -⟩ :=
        hlays.consistent.linkAll_strand hfirst rfl rfl hrest hnodup
          fun s hs => (h.isFaithful s hs).shape_eq
      rw [List.length_cons, List.range'_succ, hlink] at hspends
      refine ⟨w', hlink, hw', hspends, hstrand, fun id hid => ?_⟩
      obtain rfl := Option.some.inj hid
      exact (parent?_of_find? hb).trans hroot
  refine ⟨w', ?_, hw', ?_, hstrand, hroot⟩
  · rw [readDocument, hread]
    simp only [Outcome.ofResults_of_built hresults, hblocks, hlink]
  · exact hlays.spends.trans hspends

end Workspace

end ScriptBlocks
