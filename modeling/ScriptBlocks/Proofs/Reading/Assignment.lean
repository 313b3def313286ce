import ScriptBlocks.Proofs.Dialect.Assignment
import ScriptBlocks.Proofs.Reading.Expression
import ScriptBlocks.Proofs.Reading.Lines
import ScriptBlocks.Proofs.Text.Line

/-!
# Reading an assignment

A document that is one assignment, or one change by an amount, becomes one block, and what the text
of the value is read as hangs in it.

## Main definitions

* `Workspace.Sets` — a block sets a name to what another one stands for, or changes it by that
* `Dialect.IsValueText` — texts that may stand behind the signs

## Main statements

* `Workspace.readDocument_setting` — the line is read as its name and its value
-/

namespace ScriptBlocks

open Expression

variable {name s : List Char}

/-- A text that the line for a setting may end in. -/
structure Dialect.IsValueText (s : List Char) : Prop where
  ne_nil : s ≠ []
  trimmed : Text.Trimmed s
  isLine : Text.IsLine s
  /-- Two equals signs would be read as a comparison. -/
  head : s.head? ≠ some '='

namespace Dialect

theorem inLine_of_isLine (h : Text.IsLine s) : ∀ c ∈ s, inLine c = true := by
  intro c hc
  rw [inLine, decide_eq_true_iff]
  rintro rfl
  exact h.1 hc

theorem IsValueText.isRun (h : IsValueText s) : IsRun inLine s := ⟨h.ne_nil, inLine_of_isLine h.isLine⟩

theorem isValueText_of_chunk {ops : List (Nat × String)} (h : Chunk s ops) : IsValueText s :=
  ⟨h.ne_nil, h.trimmed, ⟨h.not_mem.1, h.not_mem.2.1⟩, fun hhead => (h.head hhead).2 rfl⟩

namespace Setting

variable {k : Setting}

theorem length_lt_line (k : Setting) (name s : List Char) : s.length < (k.line name s).length := by
  simp only [line, List.length_append, List.length_cons, List.length_nil]
  omega

theorem line_append (k : Setting) (name s t : List Char) :
    k.line name (s ++ t) = k.line name s ++ t := by
  simp [line]

theorem trimmed_line (hname : IsIdentifier name) (hs : Text.Trimmed s) (hne : s ≠ [])
    (a : List Char) : Text.Trimmed (k.line name (a ++ s)) := by
  have hplain : ∀ c ∈ name, Text.isPlain c = true :=
    fun c hc => Text.isPlain_of_isWord (hname.isWord c hc)
  have hname_ne : name ≠ [] := by
    obtain ⟨c, cs, rfl, -⟩ := hname
    exact List.cons_ne_nil c cs
  have happend := (Text.trimmed_of_isPlain hplain).append hs hname_ne hne
    ([' '] ++ (k.mark ++ (' ' :: a)))
  have hline : name ++ (([' '] ++ (k.mark ++ (' ' :: a))) ++ s) = k.line name (a ++ s) := by
    simp [line]
  rwa [hline] at happend

theorem trim_line (hname : IsIdentifier name) (hs : IsValueText s) :
    String.ofList (Text.trim (String.ofList (k.line name s)).toList) = .ofList (k.line name s) := by
  have htrimmed : Text.Trimmed (k.line name s) := trimmed_line hname hs.trimmed hs.ne_nil []
  rw [String.toList_ofList, Text.trim_of_trimmed htrimmed]

/-- Of a line that ends in white space the end is lost, but nothing of the value. -/
theorem exists_trim_line (k : Setting) (hname : IsIdentifier name) (hblank : Text.trim s ≠ []) :
    ∃ u b, s = u ++ b ∧ Text.trim (k.line name s) = k.line name u ∧ Text.trim u = Text.trim s := by
  obtain ⟨htrimmed, a, b, hs, ha, hb⟩ := Text.exists_trim s
  refine ⟨a ++ Text.trim s, b, by rwa [List.append_assoc], ?_, ?_⟩
  · have hnone : ∀ c ∈ ([] : List Char), Text.isWhite c = true := nofun
    have hpad := Text.trim_pad (trimmed_line (k := k) hname htrimmed hblank a) hnone hb
    rwa [List.nil_append, ← line_append, List.append_assoc, ← hs] at hpad
  · rw [Text.trim_append_of_isWhite ha, Text.trim_of_trimmed htrimmed]

theorem isLine_line (hname : IsIdentifier name) (hs : Text.IsLine s) :
    Text.IsLine (k.line name s) := by
  have hmem {c : Char} (hword : Text.isWord c = false) (hother : c ∉ [' ', '=', '+']) (hc : c ∉ s) :
      c ∉ k.line name s := by
    intro hmem
    have hmark : ∀ d ∈ k.mark, d ∈ [' ', '=', '+'] := by
      cases k <;> decide
    simp only [line, List.mem_append, List.mem_cons, List.not_mem_nil, or_false] at hmem
    rcases hmem with hmem | rfl | hmem | rfl | hmem
    · exact nomatch hword.symm.trans (hname.isWord c hmem)
    · exact hother (by decide)
    · exact hother (hmark c hmem)
    · exact hother (by decide)
    · exact hc hmem
  exact ⟨hmem (by decide) (by decide) hs.1, hmem (by decide) (by decide) hs.2⟩

/-- The line is neither blank nor a comment nor a word of its own. -/
theorem ignores_line (hname : IsIdentifier name) :
    ({} : ReadingOptions).ignores (.ofList (k.line name s)) = false := by
  obtain ⟨c, cs, rfl, -⟩ := id hname
  have hcomment : c ≠ '#' := by
    rintro rfl
    exact absurd (hname.isWord '#' List.mem_cons_self) (by decide)
  apply Workspace.ignores_eq_false hcomment
  intro h
  have hblank : ' ' ∈ "pass".toList := by
    rw [← h]
    exact List.mem_append_right (c :: cs) List.mem_cons_self
  exact absurd hblank (by decide)

theorem get_form (k : Setting) : vocabulary.get k.form.name = .ok k.form := by
  cases k <;> rfl

theorem construction_form (k : Setting) : k.form.construction = .withArguments := by
  cases k <;> rfl

theorem takeArguments_form (k : Setting) (key value : Value) :
    Workspace.takeArguments (k.form.template.valueSlots.map Prod.fst)
      (fields [("VAR", key), (k.slot, value)]) =
        ([(k.slot, value.toText)], fields [("VAR", key)]) := by
  cases k <;> rfl

theorem slots_ofTemplate (k : Setting) (id : BlockId) (form : String) (fields : Fields) :
    (Block.ofTemplate id form k.form.template fields).slots.entries =
      [(k.slot, .value k.check none)] := by
  cases k <;> rfl

/-- The slots of a new block when something is put into the slot for the value. -/
theorem slots_hold (k : Setting) (id : BlockId) (form : String) (fields : Fields) (x : BlockId) :
    ((Block.ofTemplate id form k.form.template fields).slots.modify k.slot
      (Slot.hold (some x))).entries = [(k.slot, .value k.check (some x))] := by
  simp [OrderedMap.modify, OrderedMap.mapValues, k.slots_ofTemplate, Slot.hold]

end Setting

end Dialect

namespace Workspace

open Dialect

variable {w w' : Workspace} {t : Arrangement} {k : Setting}

/-- The block `p` sets a name to what the block `u` stands for, or changes it by that. -/
def Sets (w : Workspace) (k : Setting) (p : BlockId) (name : String) (u : BlockId) : Prop :=
  ∃ b, w.find? p = some b ∧ b.form = k.form.name ∧
    b.fields.find? "VAR" = some (.string name) ∧
      b.slots.entries = [(k.slot, .value k.check (some u))]

instance (w : Workspace) (k : Setting) (p : BlockId) (name : String) (u : BlockId) :
    Decidable (w.Sets k p name u) :=
  inferInstanceAs (Decidable (∃ b ∈ w.find? p, b.form = k.form.name ∧
    b.fields.find? "VAR" = some (.string name) ∧
      b.slots.entries = [(k.slot, .value k.check (some u))]))

theorem Sets.unique {p u u' : BlockId} {name name' : String} (h : w.Sets k p name u)
    (h' : w.Sets k p name' u') : u = u' := by
  obtain ⟨b, hb, -, -, hslots⟩ := h
  obtain ⟨b', hb', -, -, hslots'⟩ := h'
  obtain rfl := Option.some.inj (hb.symm.trans hb')
  simpa using hslots.symm.trans hslots'

/-- The block `p` assigns the value of the block `u` to a name. -/
def Assigns (w : Workspace) (p : BlockId) (name : String) (u : BlockId) : Prop :=
  w.Sets .assign p name u

instance (w : Workspace) (p : BlockId) (name : String) (u : BlockId) :
    Decidable (w.Assigns p name u) :=
  inferInstanceAs (Decidable (w.Sets .assign p name u))

/-- The block for a setting is built with what its value is read as. -/
theorem construct_setting {depth : Nat} {key text : String} (hw : w.Consistent)
    (ht : AttachesAs depth text t) (hcompatible : Capability.compatible k.check t.output = true)
    (hroom : w.Room (constructCreations vocabulary (attachArgument vocabulary depth)
      (attachArgumentCreations vocabulary depth) w k.form
        (fields [("VAR", .string key), (k.slot, .string text)]))) :
    ∃ p u w', construct vocabulary (attachArgument vocabulary depth) w k.form
        (fields [("VAR", .string key), (k.slot, .string text)]) = (.ok p, w') ∧
      w'.Sets k p key u ∧ t.At (w'.since w.lastId) u := by
  have hvacant (id : BlockId) : (Block.ofTemplate id k.form.name k.form.template
      (fields [("VAR", .string key)])).slots.find? k.slot = some (.value k.check none) := by
    rw [OrderedMap.find?_eq_some_iff, k.slots_ofTemplate]
    exact List.mem_cons_self
  obtain ⟨p, u, w', hconstruct, hfind, hholds⟩ := construct_argument k.get_form k.construction_form
    (k.takeArguments_form ..) hvacant ht hcompatible hw hroom
  have hvar := find?_fields_ofTemplate p k.form.name k.form.template
    (show (fields [("VAR", Value.string key)]).find? "VAR" = some (.string key) from rfl)
  exact ⟨p, u, w', hconstruct, ⟨_, hfind, rfl, hvar, k.slots_hold ..⟩, hholds⟩

/-- A line that sets a name becomes the block for it. -/
theorem readLine_setting (hs : IsValueText s)
    (ht : AttachesAs (k.line name s).length (.ofList s) t)
    (hcompatible : Capability.compatible k.check t.output = true) (hname : IsIdentifier name)
    (hw : w.Consistent)
    (hroom : w.Room (readLineCreations {} vocabulary w (.ofList (k.line name s)))) :
    ∃ p u w', w.readLine {} vocabulary (.ofList (k.line name s)) = (.built p, w') ∧
      w'.Sets k p (.ofList name) u ∧ t.At (w'.since w.lastId) u := by
  obtain ⟨c, hmatch, -, hread⟩ := k.firstMatch_line hname hs.isRun.2
  rw [Text.trim_of_trimmed hs.trimmed] at hread
  obtain ⟨hline, hcreations⟩ :=
    readLine_of_match (w := w) (Setting.trim_line hname hs) (Setting.ignores_line hname) hmatch hread
  rw [← String.length_ofList] at ht
  rw [hcreations] at hroom
  obtain ⟨p, u, w', hconstruct, hsets, hholds⟩ := construct_setting hw ht hcompatible hroom
  refine ⟨p, u, w', ?_, hsets, hholds⟩
  rw [hline, hconstruct]

/-- A document that sets a name becomes one block, in which its value hangs. The line may be ended
by a line feed. -/
theorem readDocument_setting {e : List Char} (he : e = [] ∨ e = ['\n']) (hs : IsValueText s)
    (ht : AttachesAs (k.line name s).length (.ofList s) t)
    (hcompatible : Capability.compatible k.check t.output = true) (hname : IsIdentifier name)
    (hw : w.Consistent)
    (hroom : w.Room (readDocumentCreations {} vocabulary w (.ofList (k.line name s ++ e)))) :
    ∃ p u w', w.readDocument {} vocabulary (.ofList (k.line name s ++ e)) =
        ({ blocks := [p], unmatched := [], failures := [], unlinked := 0 }, w') ∧
      w.Plants w' [p] ∧ w'.Sets k p (.ofList name) u ∧ t.At (w'.since w.lastId) u := by
  obtain ⟨hplants, -⟩ := readDocument_spec hw (.ofList (k.line name s ++ e)) hroom
  have hisLine := Setting.isLine_line (k := k) hname hs.isLine
  rw [readDocumentCreations, String.toList_ofList] at hroom
  obtain ⟨lines, hlines⟩ := Text.exists_documentLines_eq hisLine he
  rw [hlines] at hroom
  obtain ⟨p, u, w', hline, hsets, hholds⟩ := readLine_setting hs ht hcompatible hname hw hroom.left
  have hread := readDocument_of_line hisLine he hline
  rw [hread] at hplants
  exact ⟨p, u, w', hread, hplants, hsets, hholds⟩

/-- A line that assigns a formula to a name becomes one block. -/
theorem readDocument_assignment {name line : String} {n : Nat} {f : Formula} (hreads : Reads n s f)
    (htyped : f.WellTyped) (hname : IsIdentifier name.toList)
    (hline : line = name ++ " = " ++ .ofList s) (hw : w.Consistent)
    (hroom : w.Room (readDocumentCreations {} vocabulary w line)) :
    ∃ p u w', w.readDocument {} vocabulary line =
        ({ blocks := [p], unmatched := [], failures := [], unlinked := 0 }, w') ∧
      w.Plants w' [p] ∧ w'.Assigns p name u ∧ Holds w'.find? u f := by
  obtain ⟨ops, hchunk, -⟩ := hreads.chunk
  have hline : String.ofList (Setting.assign.line name.toList s ++ []) = line := by
    apply String.toList_inj.1
    simp [hline, Setting.line, Setting.mark]
  rw [← hline] at hroom ⊢
  have hattach : AttachesAs (Setting.assign.line name.toList s).length (.ofList s) f.arrangement :=
    attachesAs_of_reads hreads htyped rfl (Nat.le_of_lt (Setting.length_lt_line ..))
  obtain ⟨p, u, w', hread, hplants, hsets, hholds⟩ := readDocument_setting (.inl rfl)
    (isValueText_of_chunk hchunk) hattach rfl hname hw hroom
  rw [String.ofList_toList] at hsets
  exact ⟨p, u, w', hread, hplants, hsets, Arrangement.of_since hholds⟩

/-- What hangs in the block that a setting was read as is a block of the form that takes the text. -/
theorem form_of_readDocument_setting {e : List Char} {outcome : Outcome} {p u : BlockId}
    {key : String} (he : e = [] ∨ e = ['\n']) (hs : IsValueText s) (hname : IsIdentifier name)
    (hw : w.Consistent)
    (hroom : w.Room (readDocumentCreations {} vocabulary w (.ofList (k.line name s ++ e))))
    (hread : w.readDocument {} vocabulary (.ofList (k.line name s ++ e)) = (outcome, w'))
    (hblocks : outcome.blocks = [p]) (h : w'.Sets k p key u) :
    ∃ form c child, vocabulary.expressionFor (Expression.bare (.ofList s)) = some (form, c) ∧
      w'.find? u = some child ∧ child.form = form.name := by
  obtain ⟨c, hmatch, -, hfields⟩ := k.firstMatch_line hname hs.isRun.2
  rw [Text.trim_of_trimmed hs.trimmed] at hfields
  obtain ⟨hline, hcreations⟩ := readLine_of_match (w := w) (Setting.trim_line hname hs)
    (Setting.ignores_line hname) hmatch hfields
  obtain ⟨lines, hlines⟩ := Text.exists_documentLines_eq (Setting.isLine_line (k := k) hname hs.isLine) he
  rw [readDocumentCreations, String.toList_ofList, hlines] at hroom
  replace hroom := hroom.left
  obtain ⟨id, w₁, hcreate⟩ := exists_create w k.get_form (fields [("VAR", .string (.ofList name))])
  have htake := k.takeArguments_form (.string (.ofList name)) (.string (.ofList s))
  rw [hcreations, constructCreations_of_takeArguments k.construction_form htake hcreate,
    attachAllCreations] at hroom
  rw [construct_of_takeArguments k.construction_form htake hcreate, attachAll_singleton] at hline
  obtain ⟨hbuilds, hspends, hfind⟩ := builds_create hw k.get_form hroom.left hcreate
  replace hroom := hroom.of_spends hspends
  have hcases := attachArgument_cases hbuilds.consistent hfind (valueChild_ofTemplate ..) hroom.left
  rcases hattach : attachArgument vocabulary (String.ofList (k.line name s)).length w₁ id k.slot
    (Value.string (.ofList s)).toText with ⟨_ | ⟨⟩, w₂⟩
  · -- the line failed, so the document became no block
    rw [hattach] at hline
    have hdocument := readDocument_of_line (Setting.isLine_line hname hs.isLine) he hline
    rw [hread] at hdocument
    rw [(Prod.mk.inj hdocument).1] at hblocks
    cases hblocks
  · rw [hattach] at hline hcases
    have hdocument := readDocument_of_line (Setting.isLine_line hname hs.isLine) he hline
    rw [hread] at hdocument
    obtain ⟨rfl, rfl⟩ := Prod.mk.inj hdocument
    obtain rfl : id = p := List.singleton_inj.1 hblocks
    obtain ⟨b, hb, -, -, hslots⟩ := h
    rcases hcases with hsame | ⟨form, c, x, child, hform, hp, hchild, hname⟩
    · obtain rfl := Option.some.inj (hb.symm.trans hsame)
      rw [k.slots_ofTemplate] at hslots
      exact absurd hslots (by simp)
    · obtain rfl := Option.some.inj (hb.symm.trans hp)
      rw [k.slots_hold] at hslots
      obtain rfl : x = u := by simpa using hslots
      exact ⟨form, c, child, hform, hchild, hname⟩

end Workspace

end ScriptBlocks
