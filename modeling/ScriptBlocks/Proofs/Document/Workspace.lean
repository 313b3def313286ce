import ScriptBlocks.Proofs.Document.Block
import ScriptBlocks.Proofs.Run

/-!
# The documents of workspaces

Whatever the operations of the library have made of a workspace, it is read back from its document
as it was: its links are in order, so they all name blocks, and the names of blocks fit in 64 bits.
This holds for every layout of the document, and for every order in which the blocks and the fields
of a block are listed, since it is only the other parts whose order belongs to the workspace.

## Main definitions

* `Workspace.Exact` — the workspace has an exact document
* `Block.Relists`, `Workspace.Relists` — the same blocks and fields, listed in some order

## Main statements

* `Workspace.ofJson?_toJson` — a workspace is read back from its document
* `Workspace.Consistent.exact` — workspaces whose links are in order have exact documents
* `Workspace.parse_of_relists_run` — any state that a host can reach is read back from its text
-/

namespace ScriptBlocks

open Json

/-! ### Keys -/

/-- The key of a block is its number in digits. -/
theorem idOfKey?_toString {id : BlockId} (hid : id < wordLimit) :
    idOfKey? (escape (toString id).toList) = some id := by
  have hverbatim : ∀ c ∈ Nat.toDigits 10 id, isVerbatim c = true := fun _ hc =>
    isVerbatim_of_isDigit (isDigit_of_mem_toDigits hc)
  rw [toList_toString_nat, escape_eq_self hverbatim, idOfKey?, ofDigits_toDigits]
  exact if_pos ⟨rfl, hid⟩

/-- The document of blocks under their ids. -/
def blocksToJson (float : Binary64 → Json) (blocks : OrderedMap BlockId Block) : Json :=
  .ofMembers (blocks.entries.map fun (id, b) => (toString id, b.toJson float))

variable {float : Binary64 → Json} {depth : Nat} {blocks : OrderedMap BlockId Block}

theorem blocksOfJson?_blocksToJson (hdepth : 2 < depth) (hid : ∀ id ∈ blocks.keys, id < wordLimit)
    (hblocks : ∀ b ∈ blocks.values, b.Exact) :
    blocksOfJson? depth (blocksToJson float blocks) = some blocks := by
  have hentries : (blocks.entries.map fun e =>
      (escape (toString e.1).toList, e.2.toJson float)).mapM (fun e => do
        return (← idOfKey? e.1, ← Block.ofJson? depth e.2)) = some blocks.entries := by
    refine mapM_map_eq_some fun e he => ?_
    simp only [idOfKey?_toString (hid e.1 (List.mem_map_of_mem he)),
      Block.ofJson?_toJson hdepth (hblocks e.2 (List.mem_map_of_mem he))]
    rfl
  rw [blocksToJson, ofMembers, List.map_map, blocksOfJson?]
  exact (congrArg (· >>= fun entries => pure (OrderedMap.ofList entries)) hentries).trans
    (congrArg some blocks.ofList_entries)

theorem proper_blocksToJson (hblocks : ∀ b ∈ blocks.values, b.Exact) :
    (blocksToJson float blocks).Proper := by
  refine .ofMembers fun m hm => ?_
  obtain ⟨e, he, rfl⟩ := List.mem_map.1 hm
  exact Block.proper_toJson (hblocks e.2 (List.mem_map_of_mem he))

namespace Workspace

/-- The numbers that name blocks fit in 64 bits, and no field holds a float. -/
structure Exact (w : Workspace) : Prop where
  keys_lt {id : BlockId} : id ∈ w.blocks.keys → id < wordLimit
  exact {b : Block} : b ∈ w.blocks.values → b.Exact
  order_lt {id : BlockId} : id ∈ w.order → id < wordLimit
  lastId_lt : w.lastId < wordLimit

variable {w : Workspace}

/-- A workspace is read back from its document. -/
theorem ofJson?_toJson (hw : w.Exact) : ofJson? (w.toJson float) = some w := by
  have hblocks : blocksOfJson? (maxDepth - 2) (blocksToJson float w.blocks) = some w.blocks :=
    blocksOfJson?_blocksToJson (by decide) (fun _ => hw.keys_lt) fun _ => hw.exact
  have horder : list? natural? (.array (w.order.map .ofNat)) = some w.order :=
    list?_map fun _ hid => natural?_ofNat (hw.order_lt hid)
  have hnames : entries? text? (w.variableNames.toJson .ofText) = some w.variableNames :=
    entries?_toJson fun name _ => text?_ofText name
  rw [toJson, ← blocksToJson, ofJson?, record?_ofMembers
    ["nodes", "order", "next_node_id", "variables"] (by decide) rfl]
  simp [Record.required, Record.find?, hblocks, horder, natural?_ofNat hw.lastId_lt, hnames]

theorem proper_toJson (hw : w.Exact) : (w.toJson float).Proper := by
  have hblocks : (blocksToJson float w.blocks).Proper := proper_blocksToJson fun _ => hw.exact
  have horder : (Json.array (w.order.map .ofNat)).Proper := .map fun n _ => proper_ofNat n
  have hnames : (w.variableNames.toJson .ofText).Proper := .toJson fun name _ => proper_ofText name
  rw [toJson, ← blocksToJson]
  refine .ofMembers ?_
  simp [hblocks, horder, hnames, proper_ofNat]

/-- A workspace is read back from each text of its document. -/
theorem parse_of_spells (hw : w.Exact) {text : String} (h : Spells (w.toJson float) text.toList) :
    parse text = .ok w := by
  rw [parse, Json.parse_of_spells h (proper_toJson hw), Option.bind_some, ofJson?_toJson hw]

end Workspace

/-! ### Other listings -/

/-- The block `b'` is `b` with its fields listed in some order. -/
structure Block.Relists (b' b : Block) : Prop where
  eq : b' = { b with fields := b'.fields }
  find? (name : String) : b'.fields.find? name = b.fields.find? name

theorem Block.Relists.refl (b : Block) : b.Relists b := ⟨rfl, fun _ => rfl⟩

namespace Workspace

variable {w w' : Workspace}

/-- The workspace `w'` is `w` with its blocks, and the fields of each, listed in some order. The
order of creation, the order of slots and the order of variables are not touched. -/
structure Relists (w' w : Workspace) : Prop where
  find? (id : BlockId) : Option.Rel Block.Relists (w'.find? id) (w.find? id)
  order : w'.order = w.order
  lastId : w'.lastId = w.lastId
  variableNames : w'.variableNames = w.variableNames

theorem Relists.refl (w : Workspace) : w.Relists w where
  find? id := by
    cases w.find? id with
    | none => exact .none
    | some b => exact .some (.refl b)
  order := rfl
  lastId := rfl
  variableNames := rfl

theorem Relists.exists_find? (h : w'.Relists w) {id : BlockId} {b' : Block}
    (hb' : w'.find? id = some b') : ∃ b, w.find? id = some b ∧ b'.Relists b := by
  have hrel := h.find? id
  rw [hb'] at hrel
  generalize w.find? id = found at hrel
  cases hrel with
  | some hb => exact ⟨_, rfl, hb⟩

/-- Where the links are in order, every number in a block names a block. -/
theorem Consistent.exact_of_relists (hw : w.Consistent) (hlast : w.lastId < wordLimit)
    (hfloat : ∀ b ∈ w.blocks.values, ∀ value ∈ b.fields.values, value.isFloat = false)
    (h : w'.Relists w) : w'.Exact := by
  have hlt {id : BlockId} (hid : w.contains id = true) : id < wordLimit :=
    Nat.lt_of_le_of_lt (hw.le_lastId hid) hlast
  have hfind {b' : Block} (hb' : b' ∈ w'.blocks.values) : ∃ id, w'.find? id = some b' := by
    obtain ⟨⟨id, b'⟩, he, rfl⟩ := List.mem_map.1 hb'
    exact ⟨id, OrderedMap.find?_eq_some_iff.2 he⟩
  refine ⟨fun hid => ?_, fun hb' => ?_, fun hid => ?_, h.lastId ▸ hlast⟩
  · obtain ⟨b', hb'⟩ := contains_iff_find?.1 (OrderedMap.contains_iff.2 hid)
    obtain ⟨b, hb, -⟩ := h.exists_find? hb'
    exact hlt (contains_of_find? hb)
  · obtain ⟨id, hb'⟩ := hfind hb'
    obtain ⟨b, hb, heq, hfields⟩ := h.exists_find? hb'
    -- the number of the block, that of its owner, those in its slots and behind it, and its fields
    refine ⟨?_, fun hp => ?_, fun hc => ?_, fun hvalue => ?_⟩
    · rw [heq]
      exact hlt (hw.id_eq hb ▸ contains_of_find? hb)
    · rw [heq] at hp
      obtain ⟨owner, howner, -⟩ := hw.mem_children_of_parent hb hp
      exact hlt (contains_of_find? howner)
    · rw [heq] at hc
      exact hlt (contains_of_parent? (hw.parent?_of_mem_children hb hc))
    · obtain ⟨⟨name, value⟩, he, rfl⟩ := List.mem_map.1 hvalue
      have hvalue : b.fields.find? name = some value :=
        (hfields name).symm.trans (OrderedMap.find?_eq_some_iff.2 he)
      exact hfloat b (OrderedMap.mem_values_of_find? hb) _ (OrderedMap.mem_values_of_find? hvalue)
  · rw [h.order] at hid
    exact hlt (hw.mem_order.1 hid)

/-- Whatever state a host has brought about, as long as no field holds a float, it is read back as
it was: from the text that is written for it, and from every other text of its document. -/
theorem parse_of_relists_run {commands : List Command}
    (hroom : (∅ : Workspace).creations commands < wordLimit)
    (hfloat : ∀ b ∈ ((∅ : Workspace).run commands).blocks.values, ∀ value ∈ b.fields.values,
      value.isFloat = false)
    (h : w.Relists ((∅ : Workspace).run commands)) (float : Binary64 → Json) :
    parse (w.toJson float).pretty = .ok w ∧
      ∀ text : String, Spells (w.toJson float) text.toList → parse text = .ok w := by
  obtain ⟨hw, hspends⟩ := consistent_run consistent_empty commands (room_empty hroom)
  have hlast : ((∅ : Workspace).run commands).lastId < wordLimit := by
    rw [hspends, show (∅ : Workspace).lastId = 0 from rfl, Nat.zero_add]
    exact hroom
  have hexact := hw.exact_of_relists hlast hfloat h
  exact ⟨parse_of_spells hexact (spells_pretty _), fun text => parse_of_spells hexact⟩

/-- A loop with a call in it, which has a number in its slot, and a text that needs escapes. -/
theorem parse_of_relists_session :
    let commands : List Command :=
      [.readLine {} Dialect.vocabulary "basic.show_number(7)",
        .create Dialect.vocabulary "forever" ∅, .connectStatement 3 "DO" 1,
        .create Dialect.vocabulary "text" (.ofList [("TEXT", .string "a \"b\"\n\tλ")]),
        .setField 4 "note" .null, .setField 4 "least" (.int Int64.minValue), .setEnabled 4 false,
        .declareVariable "x" "größe"]
    let w := (∅ : Workspace).run commands
    (∅ : Workspace).creations commands < wordLimit ∧
      (∀ b ∈ w.blocks.values, ∀ value ∈ b.fields.values, value.isFloat = false) ∧
      w.Relists w ∧ parse (w.toJson .ofFloat).pretty = .ok w := by
  intro commands w
  have hroom : (∅ : Workspace).creations commands < wordLimit := by decide +kernel
  have hfloat : ∀ b ∈ w.blocks.values, ∀ value ∈ b.fields.values, value.isFloat = false := by
    decide +kernel
  have hread := (parse_of_relists_run hroom hfloat (.refl w) .ofFloat).1
  exact ⟨hroom, hfloat, .refl w, hread⟩

end Workspace

end ScriptBlocks
