import ScriptBlocks.Proofs.Run

/-!
# Appending to chains

A statement is linked after the last one of a chain. The head may be any block: the walk to the last
statement goes along the chain from there, be it a stack of its own, in a slot or just one
expression. What is appended comes with the chain that it heads, and so every chain that ran to that
last statement goes on with it.

## Main statements

* `Workspace.Consistent.tail_eq_ok_iff` — the walk to the last statement ends where the chain does
* `Workspace.Consistent.chain_setLink_next` — chains are joined where their ends are linked
* `Workspace.append_effect` — when a statement is appended, and all that changes then
-/

namespace ScriptBlocks.Workspace

variable {w w' : Workspace} {id last n x : BlockId} {b child : Block}

namespace Consistent

variable (hw : w.Consistent)
include hw

/-! ### The end of a chain -/

/-- The walk to the last statement takes the steps of the walk along the chain. -/
theorem getLast?_chain (hb : w.find? id = some b) {fuel : Nat} (h : w.size ≤ fuel + w.depth id) :
    ∃ last, w.lastFrom fuel b = .ok last ∧ (w.chain id).getLast? = some last.id := by
  have hsize := hw.depth_lt_size (contains_of_find? hb)
  induction fuel generalizing id b with
  | zero => omega
  | succ fuel ih =>
    rw [hw.chain_eq hb, lastFrom]
    cases hnext : b.next with
    | none => exact ⟨b, rfl, congrArg some (hw.id_eq hb).symm⟩
    | some next =>
      have hparent := hw.parent?_of_precedes (precedes_iff.2 ⟨b, hb, hnext⟩)
      obtain ⟨after, hafter⟩ := contains_iff_find?.1 (contains_of_parent? hparent)
      have hdepth := hw.depth_of_parent? hparent
      obtain ⟨last, hlast, hend⟩ :=
        ih hafter (by omega) (hw.depth_lt_size (contains_of_parent? hparent))
      refine ⟨last, ?_, ?_⟩
      · simp only [get_of_find? hafter, bind, Except.bind, hlast]
      · rw [Option.map_some, Option.getD_some, List.getLast?_cons, hend, Option.getD_some]

theorem tail_eq_ok_iff : w.tail id = .ok last ↔ (w.chain id).getLast? = some last := by
  cases hb : w.find? id with
  | none =>
    rw [tail, get_of_find?_none hb, chain, chainWithin_of_none hb]
    constructor
    · intro h
      cases h
    · intro h
      cases h
  | some b =>
    have hfuel : w.size ≤ w.size + 1 + w.depth id := by omega
    obtain ⟨last', htail, hend⟩ := hw.getLast?_chain hb hfuel
    rw [tail, get_of_find? hb, hend]
    simp only [bind, Except.bind, htail, pure, Except.pure, Except.ok.injEq, Option.some.injEq]

/-- Nothing comes after the last statement of a chain. -/
theorem next_of_getLast? (h : (w.chain id).getLast? = some last) (hb : w.find? last = some b) :
    b.next = none := by
  have hid := (hw.mem_chain_iff.1 (List.mem_of_getLast? h)).1
  obtain ⟨b', htail, hb', -, hnext⟩ := hw.tail_eq hid
  obtain rfl : b'.id = last := Except.ok.inj (htail.symm.trans (hw.tail_eq_ok_iff.2 h))
  rwa [Option.some.inj (hb.symm.trans hb')]

/-- From a statement of a chain the rest of the chain goes on. -/
theorem chain_suffix_of_mem (h : x ∈ w.chain id) : w.chain x <:+ w.chain id := by
  refine hw.below_induction (P := fun id => x ∈ w.chain id → w.chain x <:+ w.chain id) ?_ id h
  intro id ih h
  obtain ⟨b, hb⟩ := contains_iff_find?.1 (hw.mem_chain_iff.1 h).1
  rw [hw.chain_eq hb] at h
  rcases List.mem_cons.1 h with rfl | h
  · exact List.suffix_refl _
  · rw [hw.chain_eq hb]
    cases hnext : b.next with
    | none =>
      rw [hnext] at h
      exact absurd h List.not_mem_nil
    | some next =>
      rw [hnext] at h
      have hparent := hw.parent?_of_precedes (precedes_iff.2 ⟨b, hb, hnext⟩)
      exact (ih next (.single hparent) h).trans (List.suffix_cons _ _)

/-- All chains that share a statement end alike. -/
theorem getLast?_chain_of_mem (h : x ∈ w.chain id) :
    (w.chain x).getLast? = (w.chain id).getLast? := by
  obtain ⟨before, hbefore⟩ := hw.chain_suffix_of_mem h
  obtain ⟨b, hb⟩ := contains_iff_find?.1 (hw.contains_of_mem_chain h)
  have hne : w.chain x ≠ [] := hw.chain_eq hb ▸ List.cons_ne_nil _ _
  rw [← hbefore, List.getLast?_append_of_ne_nil before hne]

/-! ### Joining two chains -/

/-- A chain that ran to `last` goes on along the chain of `n` once that is linked there. -/
theorem chain_setLink_next (hw' : (w.setLink last .next n (some n) (some last)).Consistent)
    (hb : w.find? last = some b) (hend : b.next = none) (hc : w.find? n = some child)
    (hne : n ≠ last) (habove : ¬ w.Above n last) (h : (w.chain id).getLast? = some last) :
    (w.setLink last .next n (some n) (some last)).chain id = w.chain id ++ w.chain n := by
  -- what is below the new statement is not written to
  have hchain : (w.setLink last .next n (some n) (some last)).chain n = w.chain n := by
    refine hw.chain_congr_of_next hw' hc (find?_setLink_child hb hc hne) rfl fun x hx => ?_
    have hxn : x ≠ n := fun heq => hw.acyclic (heq ▸ hx)
    have hxlast : x ≠ last := fun heq => habove (heq ▸ hx)
    rw [find?_setLink hb hc hne, if_neg hxn, if_neg hxlast]
  refine hw.below_induction (P := fun id => (w.chain id).getLast? = some last →
    (w.setLink last .next n (some n) (some last)).chain id = w.chain id ++ w.chain n) ?_ id h
  intro id ih h
  have hmem := List.mem_of_getLast? h
  obtain ⟨d, hd⟩ := contains_iff_find?.1 (hw.mem_chain_iff.1 hmem).1
  by_cases hid : id = last
  · subst hid
    rw [hw'.chain_eq (find?_setLink_owner hb hc hne), hw.chain_eq hb, hend]
    exact congrArg (id :: ·) hchain
  · -- the new statement does not lead to the last one, so the walk starts elsewhere
    have hidn : id ≠ n := by
      rintro rfl
      have hreach := (hw.mem_chain_iff.1 hmem).2
      rcases Relation.reflTransGen_iff_eq_or_transGen.1 hreach with heq | hreach
      · exact hid heq.symm
      · exact habove (hw.above_of_transGen_precedes hreach)
    have hd' : (w.setLink last .next n (some n) (some last)).find? id = some d := by
      rw [find?_setLink hb hc hne, if_neg hidn, if_neg hid, hd]
    rw [hw.chain_eq hd] at h
    rw [hw'.chain_eq hd', hw.chain_eq hd]
    cases hnext : d.next with
    | none =>
      rw [hnext] at h
      exact absurd (Option.some.inj h) hid
    | some next =>
      have hparent := hw.parent?_of_precedes (precedes_iff.2 ⟨d, hd, hnext⟩)
      obtain ⟨after, hafter⟩ := contains_iff_find?.1 (contains_of_parent? hparent)
      rw [hnext, Option.map_some, Option.getD_some, hw.chain_eq hafter, List.getLast?_cons_cons,
        ← hw.chain_eq hafter] at h
      exact congrArg (id :: ·) (ih next (.single hparent) h)

/-! ### What it takes to append, and what it does -/

/-- A statement is admitted after the end of a chain just if the connectors there allow it, and it
has no owner and is not above that end. -/
theorem admitNext_eq_ok_iff {head : BlockId} : w.admitNext head n = .ok last ↔
    ∃ b child, (w.chain head).getLast? = some last ∧ w.find? last = some b ∧
      b.shape.hasNext = true ∧ w.find? n = some child ∧ child.shape.hasPrevious = true ∧
        child.parent = none ∧ n ≠ last ∧ ¬ w.Above n last := by
  rw [admitNext_eq_ok]
  constructor
  · rintro ⟨b, child, htail, hb, hnext, hc, hprevious, hchild⟩
    exact ⟨b, child, hw.tail_eq_ok_iff.1 htail, hb, hnext, hc, hprevious,
      (hw.admitChild_iff hc).1 hchild⟩
  · rintro ⟨b, child, hlast, hb, hnext, hc, hprevious, hfree⟩
    exact ⟨b, child, hw.tail_eq_ok_iff.2 hlast, hb, hnext, hc, hprevious,
      (hw.admitChild_iff hc).2 hfree⟩

end Consistent

theorem append_eq_true_iff {head : BlockId} : w.append head n = (true, w') ↔
    ∃ last, w.admitNext head n = .ok last ∧ w' = w.setLink last .next n (some n) (some last) := by
  rw [append, append?]
  cases h : w.admitNext head n with
  | error e =>
    constructor
    · intro h
      cases h
    · rintro ⟨_, h, -⟩
      cases h
  | ok last =>
    constructor
    · intro h
      exact ⟨last, rfl, (Prod.mk.inj h).2.symm⟩
    · rintro ⟨_, h, rfl⟩
      rw [← Except.ok.inj h]
      rfl

/-- Whatever blocks a host has made, a statement is appended just if the last statement of the chain
has room after it, and the new one fits there and is not above it. Then all chains that ran to that
last statement go on with the chain of the new one, and but for this one link nothing changes. -/
theorem append_effect (commands : List Command)
    (hroom : (∅ : Workspace).creations commands < wordLimit) :
    let w := (∅ : Workspace).run commands
    ∀ head n : BlockId,
      ((w.append head n).1 = true ↔ ∃ last b child, (w.chain head).getLast? = some last ∧
        w.find? last = some b ∧ b.shape.hasNext = true ∧ w.find? n = some child ∧
          child.shape.hasPrevious = true ∧ child.parent = none ∧ n ≠ last ∧ ¬ w.Above n last) ∧
      ∀ w', w.append head n = (true, w') → ∃ last b child,
        (w.chain head).getLast? = some last ∧
        w.find? last = some b ∧ b.next = none ∧ w'.find? last = some { b with next := some n } ∧
        w.find? n = some child ∧ w'.find? n = some { child with parent := some last } ∧
        w.Loses w' (fun _ => False) [last, n] ∧
        w'.chain head = w.chain head ++ w.chain n ∧
        ∀ x ∈ w.chain head, w'.chain x = w.chain x ++ w.chain n := by
  intro w head n
  obtain ⟨hw, -⟩ := consistent_run consistent_empty commands (room_empty hroom)
  constructor
  · constructor
    · intro h
      obtain ⟨last, hadmit, -⟩ := append_eq_true_iff.1 (Prod.ext h rfl)
      exact ⟨last, hw.admitNext_eq_ok_iff.1 hadmit⟩
    · rintro ⟨last, h⟩
      exact congrArg Prod.fst (append_eq_true_iff.2 ⟨last, hw.admitNext_eq_ok_iff.2 h, rfl⟩)
  · intro w' h
    have hw' := hw.append head n
    rw [h] at hw'
    obtain ⟨last, hadmit, rfl⟩ := append_eq_true_iff.1 h
    obtain ⟨b, child, hlast, hb, -, hc, -, -, hne, habove⟩ := hw.admitNext_eq_ok_iff.1 hadmit
    have hend := hw.next_of_getLast? hlast hb
    have hjoin {x : BlockId} (hx : (w.chain x).getLast? = some last) :=
      hw.chain_setLink_next hw' hb hend hc hne habove hx
    refine ⟨last, b, child, hlast, hb, hend, find?_setLink_owner hb hc hne, hc,
      find?_setLink_child hb hc hne, hw.loses_setLink, hjoin hlast, fun x hx => ?_⟩
    exact hjoin ((hw.getLast?_chain_of_mem hx).trans hlast)

/-- A stack of two statements goes after the two that are in a loop. -/
theorem append_effect_in_loop :
    let commands : List Command :=
      [.create Dialect.vocabulary "forever" ∅, .create Dialect.vocabulary "pause" ∅,
        .create Dialect.vocabulary "pause" ∅, .connectStatement 1 "DO" 2, .append 2 3,
        .create Dialect.vocabulary "pause" ∅, .create Dialect.vocabulary "pause" ∅, .append 4 5]
    let w := (∅ : Workspace).run commands
    (∅ : Workspace).creations commands < wordLimit ∧
      ∃ w', w.append 2 4 = (true, w') ∧ w.Loses w' (fun _ => False) [3, 4] ∧
        w'.chain 2 = [2, 3, 4, 5] ∧ w'.chain 3 = [3, 4, 5] := by
  intro commands w
  have h : (∅ : Workspace).creations commands < wordLimit ∧ (w.append 2 4).1 = true ∧
      w.chain 2 = [2, 3] ∧ w.chain 3 = [3] ∧ w.chain 4 = [4, 5] := by decide +kernel
  obtain ⟨hroom, hlinked, hchain, hchain', hadded⟩ := h
  obtain ⟨-, heffect⟩ := append_effect commands hroom 2 4
  obtain ⟨last, b, child, hlast, -, -, -, -, -, hlost, -, hjoin⟩ := heffect _ (Prod.ext hlinked rfl)
  obtain rfl : 3 = last := Option.some.inj ((congrArg List.getLast? hchain).symm.trans hlast)
  refine ⟨hroom, _, Prod.ext hlinked rfl, hlost, ?_, ?_⟩
  · rw [hjoin 2 (hchain ▸ by decide), hchain, hadded]
    rfl
  · rw [hjoin 3 (hchain ▸ by decide), hchain', hadded]
    rfl

end ScriptBlocks.Workspace
