import ScriptBlocks.Proofs.Dialect.Recognition
import ScriptBlocks.Proofs.Expression.Tree
import ScriptBlocks.Proofs.Reading.Build

/-!
# Reading the text of an argument

Where the text of a formula is read into a free slot that takes its output, the tree of the formula
hangs there afterwards. The text shrinks with each operation taken apart, so the depth that the
reader allows is never used up.

## Main definitions

* `Workspace.Hangs` — an argument was attached, and it is what it should be
* `Workspace.AttachesAs` — wherever it fits, the text of an argument is read as such

## Main statements

* `Workspace.attachesAs_of_takes` — a text that a form without slots takes is read as a block of it
* `Workspace.construct_argument` — what a form with one argument makes of it
* `Workspace.attachesAs_of_reads` — the text of a formula is read as the formula
-/

namespace ScriptBlocks.Workspace

open Expression Dialect

variable {w w₁ w' : Workspace} {p id x : BlockId} {b : Block} {slot text : String}
  {check output : Option Capability} {t t' : Arrangement} {f g : Formula} {form : Form} {depth : Nat}

/-- After an attempt to attach an argument, the slot of the block `b` holds what it should, in a tree
of new blocks. -/
def Hangs (w : Workspace) (p : BlockId) (b : Block) (slot : String) (t : Arrangement)
    (r : Attempt Unit) : Prop :=
  r.1 = .ok () ∧ ∃ x, r.2.find? p = some { b with slots := b.slots.modify slot (Slot.hold (some x)) } ∧
    t.At (r.2.since w.lastId) x

/-- Read with so much depth, the text is as described wherever a free slot takes its output. -/
def AttachesAs (depth : Nat) (text : String) (t : Arrangement) : Prop :=
  ∀ ⦃w : Workspace⦄ ⦃p : BlockId⦄ ⦃b : Block⦄ ⦃slot : String⦄ ⦃check : Option Capability⦄,
    w.Consistent → w.find? p = some b → b.slots.find? slot = some (.value check none) →
      Capability.compatible check t.output = true →
        w.Room (attachArgumentCreations vocabulary depth w p slot text) →
          w.Hangs p b slot t (attachArgument vocabulary depth w p slot text)

/-- A tree of new blocks that is as described. -/
structure Constructs (w w' : Workspace) (id : BlockId) (t : Arrangement) : Prop where
  builds : ∃ form, w.Builds w' id form
  shape : ∃ b, w'.find? id = some b ∧ b.shape = .expression t.output
  holds : t.At (w'.since w.lastId) id

/-- A tree that was built is taken by a free slot for its output. -/
theorem Constructs.connectValue (hw : w.Consistent) (h : w.Constructs w' x t)
    (hp : w.find? p = some b) (hslot : b.slots.find? slot = some (.value check none))
    (hcompatible : Capability.compatible check t.output = true) :
    w.Hangs p b slot t (w'.connectValue p slot x) := by
  obtain ⟨form, hbuilds⟩ := h.builds
  obtain ⟨child, hc, hshape⟩ := h.shape
  have hle : p ≤ w.lastId := hw.le_lastId (contains_of_find? hp)
  have hne : x ≠ p := Nat.ne_of_gt (Nat.lt_of_le_of_lt hle hbuilds.lt_id)
  have hfind {y : BlockId} : ((w'.fill p slot x).own p x).find? y = _ :=
    hbuilds.find?_own_fill hw hp hc
  rw [connectValue_of_vacant (hbuilds.admitValue hw hp hslot hc hshape hcompatible)]
  refine ⟨rfl, x, hfind.trans ((if_neg hne.symm).trans (if_pos rfl)), ?_⟩
  refine t.mono (fun y b' hy => ?_) h.holds
  obtain ⟨hnew, hb'⟩ := since_eq_some.1 hy
  have hyp : y ≠ p := Nat.ne_of_gt (Nat.lt_of_le_of_lt hle hnew)
  by_cases hyx : y = x
  · subst hyx
    obtain rfl : child = b' := Option.some.inj (hc.symm.trans hb')
    exact ⟨_, since_eq_some.2 ⟨hnew, hfind.trans (if_pos rfl)⟩, rfl, rfl, rfl⟩
  · refine ⟨b', since_eq_some.2 ⟨hnew, ?_⟩, .refl b'⟩
    exact hfind.trans ((if_neg hyx).trans ((if_neg hyp).trans hb'))

/-- Once the form is found and the blocks are built, the argument is attached. -/
theorem hangs_of_constructs {fields : Fields} (hw : w.Consistent) (hp : w.find? p = some b)
    (hslot : b.slots.find? slot = some (.value check none))
    (hcompatible : Capability.compatible check t.output = true)
    (hargument : vocabulary.argument? text = some (.ok (form, fields)))
    (hconstruct : construct vocabulary (attachArgument vocabulary depth) w form fields = (.ok x, w'))
    (h : w.Constructs w' x t) :
    w.Hangs p b slot t (attachArgument vocabulary (depth + 1) w p slot text) := by
  obtain ⟨hok, hhangs⟩ := h.connectValue hw hp hslot hcompatible
  have hconnect : w'.connectValue p slot x = (.ok (), (w'.connectValue p slot x).2) :=
    Prod.ext hok rfl
  rw [attachArgument_succ]
  simp only [hargument, hconstruct, plugBuilt]
  rw [hconnect]
  exact ⟨rfl, hhangs⟩

/-! ### Single blocks -/

/-- A form whose blocks are expressions without slots, built from their fields alone. -/
structure IsSingle (form : Form) (output : Option Capability) : Prop where
  get_eq : vocabulary.get form.name = .ok form
  construction_eq : form.construction = .bare
  shape_eq : form.template.shape = .expression output
  slots_eq (id : BlockId) (name : String) (fields : Fields) :
    (Block.ofTemplate id name form.template fields).slots.entries = []

theorem isSingle_leaf (l : Leaf) : IsSingle l.form l.output :=
  ⟨l.get_form, l.construction_form, l.shape_template, l.slots_ofTemplate⟩

theorem IsSingle.constructs (h : IsSingle form output)
    {attach : Workspace → BlockId → String → String → Attempt Unit} (hw : w.Consistent)
    (hroom : w.Room 1) {pairs : List (String × Value)} (hnodup : (pairs.map Prod.fst).Nodup) :
    ∃ x w', construct vocabulary attach w form (fields pairs) = (.ok x, w') ∧
      w.Constructs w' x (form.arrangement output pairs) := by
  obtain ⟨x, w', hcreate⟩ := exists_create w h.get_eq (fields pairs)
  obtain ⟨hbuilds, -, hfind⟩ := builds_create hw h.get_eq hroom hcreate
  refine ⟨x, w', ?_, ⟨_, hbuilds⟩, ⟨_, hfind, h.shape_eq⟩, ?_⟩
  · rw [construct, h.construction_eq]
    simp only [hcreate]
  · exact Form.arrangement_of_create output hnodup (h.slots_eq ..)
      (since_eq_some.2 ⟨hbuilds.lt_id, hfind⟩)

theorem IsSingle.constructCreations_eq (h : IsSingle form output)
    {attach : Workspace → BlockId → String → String → Attempt Unit}
    {creations : Workspace → BlockId → String → String → Nat} (fields : Fields) :
    constructCreations vocabulary attach creations w form fields = 1 := by
  rw [constructCreations, h.construction_eq]
  simp only [formCreations, h.get_eq]

/-- A text that a form of single blocks takes is read as a block of the form. -/
theorem attachesAs_of_takes {pairs : List (String × Value)} (h : IsSingle form output)
    (hnodup : (pairs.map Prod.fst).Nodup)
    (hargument : vocabulary.argument? text = some (.ok (form, fields pairs)))
    (hdepth : 0 < depth) : AttachesAs depth text (form.arrangement output pairs) := by
  intro w p b slot check hw hp hslot hcompatible hroom
  obtain ⟨d, rfl⟩ := Nat.exists_eq_add_of_le' hdepth
  rw [attachArgumentCreations_succ, hargument] at hroom
  replace hroom : w.Room 1 := (h.constructCreations_eq (fields pairs)).subst hroom
  obtain ⟨x, w', hconstruct, hconstructs⟩ := h.constructs hw hroom hnodup
  exact hangs_of_constructs hw hp hslot hcompatible hargument hconstruct hconstructs

/-! ### Forms with one argument -/

/-- Where a form takes one argument, its block is built with what the argument is read as. -/
theorem construct_argument {given rest : Fields} (hget : vocabulary.get form.name = .ok form)
    (hconstruction : form.construction = .withArguments)
    (htake : takeArguments (form.template.valueSlots.map Prod.fst) given = ([(slot, text)], rest))
    (hslot : ∀ id, (Block.ofTemplate id form.name form.template rest).slots.find? slot =
      some (.value check none))
    (ht : AttachesAs depth text t) (hcompatible : Capability.compatible check t.output = true)
    (hw : w.Consistent)
    (hroom : w.Room (constructCreations vocabulary (attachArgument vocabulary depth)
      (attachArgumentCreations vocabulary depth) w form given)) :
    ∃ id x w', construct vocabulary (attachArgument vocabulary depth) w form given = (.ok id, w') ∧
      w'.find? id = some { Block.ofTemplate id form.name form.template rest with
        slots := (Block.ofTemplate id form.name form.template rest).slots.modify slot
          (Slot.hold (some x)) } ∧ t.At (w'.since w.lastId) x := by
  obtain ⟨id, w₁, hcreate⟩ := exists_create w hget rest
  rw [constructCreations_of_takeArguments hconstruction htake hcreate, attachAllCreations] at hroom
  rw [construct_of_takeArguments hconstruction htake hcreate, attachAll_singleton]
  obtain ⟨hbuilds, hspends, hfind⟩ := builds_create hw hget hroom.left hcreate
  obtain ⟨hok, x, hx, hholds⟩ := ht hbuilds.consistent hfind (hslot id) hcompatible
    (hroom.of_spends hspends).left
  rcases hresult : attachArgument vocabulary depth w₁ id slot text with ⟨r, w₂⟩
  rw [hresult] at hok hx hholds
  obtain rfl : r = .ok () := hok
  exact ⟨id, x, w₂, rfl, hx, Arrangement.since_mono hbuilds.lastId_le hholds⟩

/-! ### Operations -/

theorem takeArguments_operands (a o c : Value) :
    takeArguments ["A", "B"] (fields [("A", a), ("OP", o), ("B", c)]) =
      ([("A", a.toText), ("B", c.toText)], fields [("OP", o)]) :=
  rfl

/-- What hangs beneath a block stays there when another slot of the block is filled. -/
theorem Grows.holds {k : BlockId} (hw : w₁.Consistent) (h : w₁.Grows w' p [slot]) (hp : p ≤ k)
    (hholds : t.At (w₁.since k) x) : t.At (w'.since k) x := by
  refine t.mono (fun y b hy => ?_) hholds
  obtain ⟨hnew, hb⟩ := since_eq_some.1 hy
  have hyp : y ≠ p := Nat.ne_of_gt (Nat.lt_of_le_of_lt hp hnew)
  have hle : y ≤ w₁.lastId := hw.le_lastId (contains_of_find? hb)
  exact ⟨b, since_eq_some.2 ⟨hnew, (h.find?_eq hle hyp).trans hb⟩, .refl b⟩

/-- Two operands are attached one after the other, and the first stays while the second is read. -/
theorem attachAll_operands {left right : String} (ht : AttachesAs depth left t)
    (ht' : AttachesAs depth right t') (hw : w.Consistent) (hb : w.find? id = some b)
    (hentries : b.slots.entries = [("A", .value check none), ("B", .value check none)])
    (hcompatible : Capability.compatible check t.output = true)
    (hcompatible' : Capability.compatible check t'.output = true)
    (hroom : w.Room (attachAllCreations (attachArgument vocabulary depth · id)
      (attachArgumentCreations vocabulary depth · id) [("A", left), ("B", right)] w)) :
    ∃ w' x y slots, attachAll (attachArgument vocabulary depth · id)
          [("A", left), ("B", right)] w = (.ok (), w') ∧ w.Grows w' id ["A", "B"] ∧
      w'.find? id = some { b with slots := slots } ∧
      slots.entries = [("A", .value check (some x)), ("B", .value check (some y))] ∧
      t.At (w'.since w.lastId) x ∧ t'.At (w'.since w.lastId) y := by
  have hvacant {b : Block} {slot : String} (h : b.slots.find? slot = some (.value check none)) :
      b.valueChild slot = none := by
    rw [Block.valueChild, h]
  have hslot : b.slots.find? "A" = some (.value check none) := by
    rw [OrderedMap.find?_eq_some_iff, hentries]
    exact List.mem_cons_self
  rw [attachAllCreations] at hroom
  obtain ⟨hgrows, hspends⟩ := attaches_attachArgument vocabulary depth w id b "A" left hw hb
    (hvacant hslot) hroom.left
  obtain ⟨hok, x, hx, hfirst⟩ := ht hw hb hslot hcompatible hroom.left
  rw [attachAll]
  rcases hresult : attachArgument vocabulary depth w id "A" left with ⟨r, w₁⟩
  rw [hresult] at hgrows hspends hok hx hfirst hroom
  obtain rfl : r = .ok () := hok
  replace hroom := hroom.of_spends hspends
  simp only [attachAllCreations] at hroom
  have hslot' : (b.slots.modify "A" (Slot.hold (some x))).find? "B" =
      some (.value check none) := by
    rw [OrderedMap.find?_modify, if_neg (by decide), OrderedMap.find?_eq_some_iff, hentries]
    exact List.mem_cons_of_mem _ List.mem_cons_self
  obtain ⟨hgrows', hspends'⟩ := attaches_attachArgument vocabulary depth w₁ id _ "B" right
    hgrows.consistent hx (hvacant hslot') hroom.left
  obtain ⟨hok', y, hy, hsecond⟩ := ht' hgrows.consistent hx hslot' hcompatible' hroom.left
  simp only [attachAll]
  rcases hresult' : attachArgument vocabulary depth w₁ id "B" right with ⟨r, w₂⟩
  rw [hresult'] at hgrows' hok' hy hsecond
  obtain rfl : r = .ok () := hok'
  refine ⟨w₂, x, y, _, rfl, ?_, hy, ?_, ?_, ?_⟩
  · exact hgrows.trans hw (contains_of_find? hb) hgrows'
  · simp [OrderedMap.modify, OrderedMap.mapValues, hentries, Slot.hold]
  · exact hgrows'.holds hgrows.consistent (hw.le_lastId (contains_of_find? hb)) hfirst
  · exact Arrangement.since_mono hgrows.lastId_le hsecond

/-- An operation is built from its operands if its arguments are read as these. -/
theorem constructs_binary {op : Operator} {s t : String} (hw : w.Consistent)
    (hf : AttachesAs depth s f.arrangement) (hg : AttachesAs depth t g.arrangement)
    (htyped : (Formula.binary op f g).WellTyped)
    (hroom : w.Room (constructCreations vocabulary (attachArgument vocabulary depth)
      (attachArgumentCreations vocabulary depth) w op.form
        (fields [("A", .string s), ("OP", .string op.code), ("B", .string t)]))) :
    ∃ x w', construct vocabulary (attachArgument vocabulary depth) w op.form
        (fields [("A", .string s), ("OP", .string op.code), ("B", .string t)]) = (.ok x, w') ∧
      w.Constructs w' x (Formula.binary op f g).arrangement := by
  obtain ⟨hfoutput, hgoutput, -, -⟩ := htyped
  have htake : takeArguments (op.form.template.valueSlots.map Prod.fst)
      (fields [("A", .string s), ("OP", .string op.code), ("B", .string t)]) =
        ([("A", s), ("B", t)], fields [("OP", .string op.code)]) := by
    rw [op.valueSlots_template]
    exact takeArguments_operands _ _ _
  obtain ⟨id, w₁, hcreate⟩ := exists_create w op.get_form (fields [("OP", .string op.code)])
  rw [constructCreations_of_takeArguments op.construction_form htake hcreate] at hroom
  rw [construct_of_takeArguments op.construction_form htake hcreate]
  obtain ⟨hbuilds, hspends, hfind⟩ := builds_create hw op.get_form hroom.left hcreate
  obtain ⟨w', x, y, slots, hall, hgrows, hid, hslots, hx, hy⟩ := attachAll_operands hf hg
    hbuilds.consistent hfind (op.slots_ofTemplate ..) hfoutput hgoutput (hroom.of_spends hspends)
  rw [hall]
  refine ⟨id, w', rfl, ⟨_, hbuilds.grows hgrows⟩, ⟨_, hid, op.shape_template⟩, ?_⟩
  exact ⟨_, x, y, since_eq_some.2 ⟨hbuilds.lt_id, hid⟩, rfl,
    find?_fields_ofTemplate id op.form.name _ rfl, Block.operands?_eq_some.2 ⟨_, _, hslots⟩,
    Arrangement.since_mono hbuilds.lastId_le hx, Arrangement.since_mono hbuilds.lastId_le hy⟩

/-! ### Texts -/

/-- Read with enough depth, the text of a formula is the formula, also where more parentheses stand
around it. -/
theorem attachesAs_of_reads {n : Nat} {s : List Char} (h : Reads n s f) (htyped : f.WellTyped)
    (hbare : Expression.bare text = Expression.bare (.ofList s)) (hdepth : s.length ≤ depth) :
    AttachesAs depth text f.arrangement := by
  induction h generalizing text depth with
  | @leaf n s l hl =>
    have hne := hl.outline.chunk.ne_nil
    rw [bare_outline hl.outline] at hbare
    refine attachesAs_of_takes (isSingle_leaf l) l.nodup_fields
      (Vocabulary.argument?_eq_ok_iff.2 ?_)
      (Nat.lt_of_lt_of_le (List.length_pos_of_ne_nil hne) hdepth)
    rw [hbare]
    exact ⟨mt String.ofList_eq_empty_iff.1 hne, expressionFor_spelled hl⟩
  | paren n ha hb h ih =>
    obtain ⟨ops, hchunk, -⟩ := h.chunk
    refine ih htyped (hbare.trans (bare_paren hchunk ha hb)) (Nat.le_trans ?_ hdepth)
    simp only [List.length_cons, List.length_append]
    omega
  | @binary n op a b s t f g hn ha hb hf hg ihf ihg =>
    intro w p b' slot check hw hp hslot hcompatible hroom
    obtain ⟨ops, hs, -⟩ := hf.chunk
    obtain ⟨ops', ht, -⟩ := hg.chunk
    rw [bare_binary hs ht op ha hb] at hbare
    have htext : String.ofList (s ++ (a ++ (op.symbol.toList ++ (b ++ t)))) ≠ "" := fun h =>
      hs.ne_nil (List.append_eq_nil_iff.1 (String.ofList_eq_empty_iff.1 h)).1
    have hsymbol : 0 < op.symbol.toList.length := by
      cases op <;> decide
    simp only [List.length_append] at hdepth
    obtain ⟨d, rfl⟩ := Nat.exists_eq_succ_of_ne_zero (n := depth) (by omega)
    have hargument := Vocabulary.argument?_eq_ok_iff.2 ⟨hbare ▸ htext,
      hbare ▸ expressionFor_binary hf hg ha hb htyped⟩
    rw [Nat.succ_eq_add_one, attachArgumentCreations_succ, hargument] at hroom
    obtain ⟨x, w', hconstruct, hconstructs⟩ := constructs_binary hw
      (ihf htyped.2.2.1 rfl (by omega)) (ihg htyped.2.2.2 rfl (by omega)) htyped hroom
    exact hangs_of_constructs hw hp hslot hcompatible hargument hconstruct hconstructs

end ScriptBlocks.Workspace
