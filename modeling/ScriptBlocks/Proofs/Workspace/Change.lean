import ScriptBlocks.Proofs.Workspace.Walk

/-!
# Changes that leave the links alone

Most operations change one block without touching its links, or add a block that has none yet. Either
keeps a workspace consistent.

## Main definitions

* `Workspace.Inert` — a change of a block that leaves its links alone
* `Workspace.addBlock` — the workspace with one more block

## Main statements

* `Workspace.Consistent.modify` — an inert change keeps the workspace consistent
* `Workspace.Consistent.addBlock` — and so does a new block
-/

namespace ScriptBlocks.Workspace

variable {w w' : Workspace} {id p c x : BlockId} {b b' child : Block}

/-! ### What a change does to each block -/

theorem find?_modify (w : Workspace) (id x : BlockId) (f : Block → Block) :
    (w.modify id f).find? x = if x = id then (w.find? x).map f else w.find? x :=
  OrderedMap.find?_modify ..

@[simp] theorem contains_modify (w : Workspace) (id x : BlockId) (f : Block → Block) :
    (w.modify id f).contains x = w.contains x := by
  rw [Bool.eq_iff_iff, contains, contains, OrderedMap.contains_iff, OrderedMap.contains_iff, modify,
    OrderedMap.keys_modify]

theorem find?_forget (w : Workspace) (ids : List BlockId) (x : BlockId) :
    (w.forget ids).find? x = if x ∈ ids then none else w.find? x := by
  rw [find?, forget, OrderedMap.find?_filterKeys]
  by_cases h : x ∈ ids <;> simp [h, find?]

/-! ### A change within one block -/

/-- A change that leaves the links of a block alone, and what may be linked from it. -/
structure Inert (f : Block → Block) : Prop where
  id_eq (b : Block) : (f b).id = b.id
  parent_eq (b : Block) : (f b).parent = b.parent
  children_eq (b : Block) : (f b).children = b.children
  shape_eq (b : Block) : (f b).shape = b.shape
  admits (b : Block) (c : BlockId) (child : Block) : b.Admits c child → (f b).Admits c child

theorem Inert.find?_eq {f : Block → Block} (hf : Inert f) (h : (w.modify id f).find? x = some b') :
    ∃ b, w.find? x = some b ∧ b'.id = b.id ∧ b'.parent = b.parent ∧ b'.children = b.children ∧
      b'.shape = b.shape ∧ ∀ c child, b.Admits c child → b'.Admits c child := by
  rw [find?_modify] at h
  split at h
  · obtain ⟨b, hb, rfl⟩ := Option.map_eq_some_iff.1 h
    exact ⟨b, hb, hf.id_eq b, hf.parent_eq b, hf.children_eq b, hf.shape_eq b, hf.admits b⟩
  · exact ⟨b', h, rfl, rfl, rfl, rfl, fun _ _ h => h⟩

theorem Inert.parent?_eq {f : Block → Block} (hf : Inert f) :
    (w.modify id f).parent? x = w.parent? x := by
  rw [parent?, parent?, find?_modify]
  split
  · cases w.find? x with
    | none => rfl
    | some b => exact hf.parent_eq b
  · rfl

theorem Inert.childrenOf_eq {f : Block → Block} (hf : Inert f) :
    (w.modify id f).childrenOf x = w.childrenOf x := by
  rw [childrenOf, childrenOf, find?_modify]
  split
  · cases w.find? x with
    | none => rfl
    | some b => exact congrArg (fun l => (some l).getD []) (hf.children_eq b)
  · rfl

theorem Consistent.modify {f : Block → Block} (hw : w.Consistent) (hf : Inert f) :
    (w.modify id f).Consistent where
  sorted := hw.sorted
  mem_order := by
    intro x
    rw [contains_modify]
    exact hw.mem_order
  le_lastId h := hw.le_lastId (by rwa [contains_modify] at h)
  id_eq h := by
    obtain ⟨b, hb, hid, -⟩ := hf.find?_eq h
    exact hid.trans (hw.id_eq hb)
  mem_children := by
    intro p c
    rw [hf.childrenOf_eq, hf.parent?_eq]
    exact hw.mem_children
  nodup_children p := by
    rw [hf.childrenOf_eq]
    exact hw.nodup_children p
  acyclic h := by
    refine hw.acyclic (h.mono fun x y hp => ?_)
    rwa [hf.parent?_eq] at hp
  admits hb hc := by
    obtain ⟨b, hb, -, -, -, -, hadmits⟩ := hf.find?_eq hb
    obtain ⟨child, hc, -, -, -, hshape, -⟩ := hf.find?_eq hc
    exact (hadmits _ _ (hw.admits hb hc)).of_shape_eq hshape

/-! ### A new block -/

/-- The workspace with a block that follows all others in the order of creation. -/
def addBlock (w : Workspace) (b : Block) : Workspace :=
  { w with
    blocks := w.blocks.insert b.id b
    order := w.order ++ [b.id]
    lastId := b.id }

theorem find?_addBlock (w : Workspace) (b : Block) (x : BlockId) :
    (w.addBlock b).find? x = if x = b.id then some b else w.find? x :=
  OrderedMap.find?_insert ..

theorem contains_addBlock (w : Workspace) (b : Block) (x : BlockId) :
    (w.addBlock b).contains x = true ↔ x = b.id ∨ w.contains x = true := by
  rw [contains_iff_find?, contains_iff_find?, find?_addBlock]
  split
  · next h => exact iff_of_true ⟨b, rfl⟩ (.inl h)
  · next h => exact (or_iff_right h).symm

theorem parent?_addBlock (hw : w.Consistent) (hfresh : w.lastId < b.id) (hparent : b.parent = none)
    (x : BlockId) : (w.addBlock b).parent? x = w.parent? x := by
  rw [parent?, parent?, find?_addBlock]
  split
  · next h => rw [h, hw.find?_of_lastId_lt hfresh]; exact hparent
  · rfl

theorem childrenOf_addBlock (hw : w.Consistent) (hfresh : w.lastId < b.id) (hchildren : b.children = [])
    (x : BlockId) : (w.addBlock b).childrenOf x = w.childrenOf x := by
  rw [childrenOf, childrenOf, find?_addBlock]
  split
  · next h => rw [h, hw.find?_of_lastId_lt hfresh]; exact hchildren
  · rfl

/-- A block that owns nothing admits every link it has. -/
theorem admits_of_children_eq_nil (h : b.children = []) : b.Admits c child := by
  rw [Block.children, List.append_eq_nil_iff] at h
  constructor
  · intro s hs ho
    have hmem : c ∈ b.slots.values.filterMap Slot.occupant := List.mem_filterMap.2 ⟨s, hs, ho⟩
    rw [h.1] at hmem
    exact absurd hmem List.not_mem_nil
  · intro hn
    rw [hn] at h
    cases h.2

theorem Consistent.addBlock (hw : w.Consistent) (hfresh : w.lastId < b.id)
    (hparent : b.parent = none) (hchildren : b.children = []) : (w.addBlock b).Consistent where
  sorted := by
    refine List.pairwise_append.2 ⟨hw.sorted, List.pairwise_singleton _ _, ?_⟩
    intro x hx y hy
    rw [List.mem_singleton.1 hy]
    exact Nat.lt_of_le_of_lt (hw.le_lastId (hw.mem_order.1 hx)) hfresh
  mem_order := by
    intro x
    rw [contains_addBlock, Workspace.addBlock, List.mem_append, List.mem_singleton, hw.mem_order,
      or_comm]
  le_lastId h := by
    rcases (contains_addBlock _ _ _).1 h with rfl | h
    · exact Nat.le_refl _
    · exact Nat.le_of_lt (Nat.lt_of_le_of_lt (hw.le_lastId h) hfresh)
  id_eq h := by
    rw [find?_addBlock] at h
    split at h
    · next hx => rw [← Option.some.inj h, hx]
    · exact hw.id_eq h
  mem_children := by
    intro p c
    rw [childrenOf_addBlock hw hfresh hchildren, parent?_addBlock hw hfresh hparent]
    exact hw.mem_children
  nodup_children p := by
    rw [childrenOf_addBlock hw hfresh hchildren]
    exact hw.nodup_children p
  acyclic h := by
    refine hw.acyclic (h.mono fun x y hp => ?_)
    rwa [parent?_addBlock hw hfresh hparent] at hp
  admits {p c d child} hd hc := by
    rw [find?_addBlock] at hd hc
    split at hd
    · exact Option.some.inj hd ▸ admits_of_children_eq_nil hchildren
    · split at hc
      · next hcb =>
        -- No link leads to an id that was not in use.
        have hnone := hw.find?_of_lastId_lt hfresh
        have hnot : c ∉ d.children := fun hmem => by
          obtain ⟨_, hfind, -⟩ := hw.find?_of_mem_children hd hmem
          rw [hcb, hnone] at hfind
          exact nomatch hfind
        rw [Block.children, List.mem_append, not_or] at hnot
        refine ⟨fun s hs ho => ?_, fun hn => ?_⟩
        · exact absurd (List.mem_filterMap.2 ⟨s, hs, ho⟩) hnot.1
        · exact absurd (hn ▸ List.mem_singleton_self c) hnot.2
      · exact hw.admits hd hc

end ScriptBlocks.Workspace
