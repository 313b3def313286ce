import ScriptBlocks.Proofs.Dialect.Bodies
import ScriptBlocks.Proofs.Dialect.Returns
import ScriptBlocks.Proofs.Writing.Globals

/-!
# Nested bodies

A body is indented once when the statements of its slot are gathered, and is offered for indentation
once more when the form of the block prints it. The second time nothing is left to do, so that each
statement is found one indent further in than on its own, and at any depth its lines have one indent
for each body around it.

## Main definitions

* `Workspace.NoReturns` — no carriage return gets into a text
* `Workspace.IsLaidOut` — a body is made up of the texts of its statements
* `Workspace.PrintsWithin`, `Workspace.Nested` — the bodies that are printed around a statement

## Main statements

* `Workspace.NoReturns.noReturn_render` — no carriage return is in the text of a block
* `Workspace.isLaidOut_of_parts` — the body that a form prints for a slot
* `Workspace.write_laysOut` — bodies, what is printed around them, and statements at any depth
-/

namespace ScriptBlocks

open Dialect Layout

namespace Workspace

/-- There are no carriage returns in the fields, in the names that variables stand for, and in the
statement for an empty body. -/
structure NoReturns (v : Vocabulary) (o : WritingOptions) (w : Workspace) : Prop where
  field {id : BlockId} {b : Block} : w.find? id = some b → ∀ name, NoReturn (b.fields.text name)
  variableName {x : BlockId} {name : String} : w.RefersTo v o.fallbackVariable x name → NoReturn name
  emptyBody : NoReturn o.emptyBody

/-- The statements of the chain with this head. -/
def statements (w : Workspace) : Option BlockId → List BlockId
  | some head => w.chain head
  | none => []

/-- The body is a line with the placeholder if all texts of the statements are blank. Otherwise it is
made up of these texts, one after the other, with the indent in front of each line that is not
blank. -/
def IsLaidOut (v : Vocabulary) (o : WritingOptions) (w : Workspace) (head : Option BlockId)
    (body : String) : Prop :=
  ∃ codes, (w.statements head).mapM (write v o w) = .ok codes ∧
    body = if codes.all fun code => Text.isBlank code.toList then o.indent ++ o.emptyBody ++ "\n"
      else String.join (codes.map fun code => indentLines code o.indent)

variable {w : Workspace} {v : Vocabulary} {o : WritingOptions} {id x : BlockId} {b : Block}
  {form : Form} {p : Parts} {slot : String}

/-! ### Carriage returns -/

theorem exists_of_operand {render : BlockId → Except Error Fragment} {operand : Operand}
    (h : w.operand render slot id = .ok operand) :
    render id = .ok (.expression operand.code operand.precedence) := by
  rw [Workspace.operand, bind_eq_ok] at h
  obtain ⟨fragment, hrender, h⟩ := h
  cases fragment with
  | expression code precedence =>
    obtain rfl := Except.ok.inj h
    exact hrender
  | statement =>
    rw [bind_eq_ok] at h
    obtain ⟨_, -, h⟩ := h
    exact (throw_eq_ok.1 h).elim

namespace NoReturns

variable (h : w.NoReturns vocabulary o) (hw : w.Consistent) (hindent : NoReturn o.indent)
include h hw hindent

/-- There are none in the parts of a block if there are none in the texts of what lies below it. -/
theorem parts (hb : w.find? id = some b) (hform : vocabulary.find? b.form = some form)
    (hbelow : ∀ c, w.Above id c → ∀ fragment, render vocabulary o w c = .ok fragment →
      NoReturn fragment.code)
    (hparts : w.parts vocabulary o (render vocabulary o w) form b id = .ok p) : p.NoReturns := by
  obtain ⟨hgathers, hoptions, hfields, hname, hglobals⟩ := gathers_of_parts hparts
  refine ⟨fun name => ?_, fun slot required default hdefault => ?_, fun slot => ?_, ?_, ?_⟩
  · rw [Parts.fieldText, hfields]
    exact h.field hb name
  · rw [Parts.value]
    split
    · next code precedence hvalue =>
      obtain ⟨check, child, hmem, hoperand⟩ := hgathers.value hvalue
      -- an expression in a slot lies below the block
      have hchild := hw.above_of_encloses (encloses_of_mem_slots hb hmem rfl)
      have hcode := hbelow child hchild _ (exists_of_operand hoperand)
      refine noReturn_ite hdefault (noReturn_ite ?_ hcode)
      exact noReturn_append.2 ⟨noReturn_append.2 ⟨by decide, hcode⟩, by decide⟩
    · exact hdefault
  · obtain ⟨code, -, hbody⟩ := body_of_parts hparts slot
    rw [hbody]
    exact noReturn_block _ hindent h.emptyBody
  · rw [Parts.globalsLine, hoptions]
    refine noReturn_ite (by decide) ?_
    refine noReturn_append.2 ⟨noReturn_append.2 ⟨noReturn_append.2 ⟨hindent, by decide⟩, ?_⟩,
      by decide⟩
    refine noReturn_intercalate (by decide) fun name hmem => ?_
    rw [hglobals] at hmem
    split at hmem
    · obtain ⟨x, -, hrefers⟩ := hw.mem_freeVariables_iff.1 hmem
      exact h.variableName hrefers
    · exact absurd hmem List.not_mem_nil
  · intro name hsome
    rw [hname, Option.map_eq_some_iff] at hsome
    obtain ⟨field, hfield, rfl⟩ := hsome
    exact h.variableName ⟨b, form, field, hb, hform, hfield, rfl⟩

/-- No carriage return is in the text of a block. -/
theorem noReturn_render (hf : w.FormedBy vocabulary) (id : BlockId) :
    ∀ fragment, render vocabulary o w id = .ok fragment → NoReturn fragment.code := by
  refine hw.below_induction (P := fun id => ∀ fragment, render vocabulary o w id = .ok fragment →
    NoReturn fragment.code) (fun id ih fragment hrender => ?_) id
  cases hb : w.find? id with
  | none =>
    rw [render, renderWithin, get_of_find?_none hb, bind_eq_ok] at hrender
    obtain ⟨_, hnone, -⟩ := hrender
    cases hnone
  | some b =>
    obtain ⟨form, hform, -⟩ := hf hb
    by_cases hsilent : w.IsSilent vocabulary id
    · obtain rfl := Except.ok.inj ((render_of_isSilent hw hsilent).symm.trans hrender)
      exact (by decide : NoReturn "")
    · obtain ⟨p, hparts, hwrite⟩ := exists_parts hw hf hb hform hsilent
      have hp := h.parts hw hindent hb hform ih hparts
      exact noReturn_write (List.mem_of_find?_eq_some hform) hp (hwrite.symm.trans hrender)

end NoReturns

/-- It is enough to look at the values of fields, at the variables of the workspace, and at the
options. -/
theorem noReturns_of_entries (hw : w.Consistent) (v : Vocabulary)
    (hfields : ∀ id ∈ w.order, ∀ b ∈ w.find? id, ∀ e ∈ b.fields.entries, NoReturn e.2.toText)
    (hnames : ∀ e ∈ w.variableNames.entries, NoReturn e.2) (hfallback : NoReturn o.fallbackVariable)
    (hempty : NoReturn o.emptyBody) : w.NoReturns v o := by
  have htext {id : BlockId} {b : Block} (hb : w.find? id = some b) (name : String) :
      NoReturn (b.fields.text name) := by
    rw [Fields.text]
    cases hfind : b.fields.find? name with
    | none => exact (by decide : NoReturn "")
    | some value =>
      have hmem := OrderedMap.find?_eq_some_iff.1 hfind
      exact hfields id (hw.mem_order.2 (contains_of_find? hb)) b hb _ hmem
  refine ⟨htext, ?_, hempty⟩
  rintro x name ⟨b, form, field, hb, -, -, rfl⟩
  rw [resolveName]
  split
  · next name hname => exact hnames _ (OrderedMap.find?_eq_some_iff.1 hname)
  · exact noReturn_ite hfallback (htext hb field)

/-! ### One body -/

/-- A slot for statements holds no expressions. -/
theorem Consistent.isExpression_of_mem_statements (hw : w.Consistent) (hb : w.find? id = some b)
    (hx : x ∈ w.statements (b.statementHead slot)) :
    ∃ s, w.find? x = some s ∧ s.shape.isExpression = false := by
  cases hhead : b.statementHead slot with
  | none =>
    rw [hhead] at hx
    exact absurd hx List.not_mem_nil
  | some head =>
    rw [hhead] at hx
    have hmem := OrderedMap.mem_values_of_find? (Block.statementHead_eq_some_iff.1 hhead)
    obtain ⟨s, hs⟩ := contains_iff_find?.1 (hw.contains_of_mem_chain hx)
    refine ⟨s, hs, ?_⟩
    have hprevious : s.shape.hasPrevious = true := by
      obtain ⟨-, hreach⟩ := hw.mem_chain_iff.1 hx
      rcases Relation.ReflTransGen.cases_tail hreach with rfl | ⟨y, -, hy⟩
      · exact (hw.admits hb hs).1 _ hmem rfl
      · obtain ⟨before, hbefore, hnext⟩ := precedes_iff.1 hy
        exact ((hw.admits hbefore hs).2 hnext).2
    cases hshape : s.shape with
    | statement => rfl
    | expression => exact nomatch (hshape ▸ hprevious :)

section

variable (hw : w.Consistent) (hf : w.FormedBy vocabulary)
include hw hf

/-- A statement in a slot has no text at all, or complete lines that are not all blank. -/
theorem exists_render_of_mem_statements (hb : w.find? id = some b)
    (hx : x ∈ w.statements (b.statementHead slot)) :
    ∃ code, render vocabulary o w x = .ok (.statement code) ∧
      (code = "" ∨ EndsLine code ∧ Text.isBlank code.toList = false) := by
  obtain ⟨s, hs, hshape⟩ := hw.isExpression_of_mem_statements hb hx
  obtain ⟨form, hform, hsame⟩ := hf hs
  by_cases hsilent : w.IsSilent vocabulary x
  · exact ⟨"", render_of_isSilent hw hsilent, .inl rfl⟩
  · obtain ⟨p, -, hwrite⟩ := exists_parts hw hf (o := o) hs hform hsilent
    have hmem : form ∈ forms := List.mem_of_find?_eq_some hform
    have hstatement : form.template.shape.isExpression = false := hsame ▸ hshape
    obtain ⟨code, hcode, hline⟩ := exists_write_of_statement hmem hstatement p
    exact ⟨code, hwrite.trans hcode, .inr ⟨hline, isBlank_of_statement hmem hstatement hcode⟩⟩

theorem lines_of_mem_codes (hb : w.find? id = some b) {codes : List String}
    (hcodes : (w.statements (b.statementHead slot)).mapM (write vocabulary o w) = .ok codes) :
    ∀ code ∈ codes, code = "" ∨ EndsLine code := by
  intro code hcode
  obtain ⟨s, hs, hwrite⟩ := exists_of_mem_mapM hcodes hcode
  obtain ⟨code', hrender, hlines⟩ := exists_render_of_mem_statements hw hf (o := o) hb hs
  rw [write, hrender] at hwrite
  obtain rfl := Except.ok.inj hwrite
  exact hlines.imp_right And.left

/-- The text of the statements in a slot consists of the texts that they have on their own. -/
theorem exists_codes (hb : w.find? id = some b) {code : String}
    (h : w.bodyText (render vocabulary o w) (b.statementHead slot) = .ok code) :
    ∃ codes, (w.statements (b.statementHead slot)).mapM (write vocabulary o w) = .ok codes ∧
      code = String.join codes := by
  have hstatement x (hx : x ∈ w.statements (b.statementHead slot)) :=
    exists_render_of_mem_statements hw hf (o := o) hb hx
  cases hhead : b.statementHead slot with
  | none =>
    rw [hhead] at h
    obtain rfl := Except.ok.inj h
    exact ⟨[], rfl, rfl⟩
  | some head =>
    rw [hhead] at h hstatement
    simp only [bodyText, chainText, bind_eq_ok, pure_eq_ok] at h
    obtain ⟨fragments, hfragments, rfl⟩ := h
    refine ⟨fragments.map Fragment.code, mapM_eq_ok_iff.2 ?_, ?_⟩
    · rw [List.forall₂_map_right_iff]
      refine (mapM_eq_ok_iff.1 hfragments).imp fun x fragment hrender => ?_
      rw [write, hrender]
      rfl
    · refine congrArg String.join (List.map_congr_left fun fragment hfragment => ?_)
      obtain ⟨x, hx, hrender⟩ := exists_of_mem_mapM hfragments hfragment
      obtain ⟨code, hcode, -⟩ := hstatement x hx
      obtain rfl := Except.ok.inj (hrender.symm.trans hcode)
      rfl

variable (hindent : Indent o.indent.toList) (hreturns : w.NoReturns vocabulary o)
include hindent hreturns

/-- The body that the form of a block is given for a slot is not indented twice. -/
theorem isLaidOut_of_parts (hb : w.find? id = some b)
    (hparts : w.parts vocabulary o (render vocabulary o w) form b id = .ok p) (slot : String) :
    w.IsLaidOut vocabulary o (b.statementHead slot) (p.body slot) := by
  obtain ⟨code, hcode, hbody⟩ := body_of_parts hparts slot
  obtain ⟨codes, hcodes, rfl⟩ := exists_codes hw hf hb hcode
  have hlines := lines_of_mem_codes hw hf hb hcodes
  refine ⟨codes, hcodes, ?_⟩
  have hreturn : NoReturn (String.join codes) := by
    refine noReturn_join fun c hc => ?_
    obtain ⟨s, -, hs⟩ := exists_of_mem_mapM hcodes hc
    obtain ⟨fragment, hrender, rfl⟩ := map_eq_ok.1 hs
    exact hreturns.noReturn_render hw hindent.carriageReturn hf s fragment hrender
  have hends := endsLines_toList_iff.2 (EndsLine.join hlines)
  -- the form comes upon lines that are indented already
  rw [hbody, ← indentLines_join hlines, ← Text.isBlank_join, block, indentLines,
    String.toList_ofList, blockChars_indentChars hindent _ hends hreturn]
  split
  · rw [String.ofList_append, String.ofList_append, String.ofList_toList, String.ofList_toList]
  · rfl

end

/-! ### Statements at any depth -/

/-- The text of the block `p` has a body in it that the statement `s` belongs to. -/
def PrintsWithin (w : Workspace) (p s : BlockId) : Prop :=
  ∃ b form slot, w.find? p = some b ∧ vocabulary.find? b.form = some form ∧
    ¬ w.IsSilent vocabulary p ∧ PrintsBody b form slot ∧ s ∈ w.statements (b.statementHead slot)

/-- The statement `s` is in as many bodies in the text of `p`, one in the other. -/
inductive Nested (w : Workspace) : Nat → BlockId → BlockId → Prop where
  | direct {p s : BlockId} (h : w.PrintsWithin p s) : Nested w 1 p s
  | deeper {d : Nat} {p q s : BlockId} (hq : w.PrintsWithin p q) (h : Nested w d q s) :
    Nested w (d + 1) p s

section

variable (hw : w.Consistent) (hf : w.FormedBy vocabulary) (hindent : Indent o.indent.toList)
  (hreturns : w.NoReturns vocabulary o)
include hw hf hindent hreturns

/-- A statement of a body that is printed is found there, one indent further in. -/
theorem PrintsWithin.standsIn {p s : BlockId} (h : w.PrintsWithin p s) :
    ∃ text code, write vocabulary o w p = .ok text ∧ write vocabulary o w s = .ok code ∧
      (code = "" ∨ EndsLine code) ∧ StandsIn (indentLines code o.indent) text := by
  obtain ⟨b, form, slot, hb, hform, hsilent, hprints, hs⟩ := h
  obtain ⟨parts, hparts, hrender⟩ := exists_parts hw hf (o := o) hb hform hsilent
  obtain ⟨fragment, hfragment, -⟩ := exists_render_fits hw hf (o := o) hb
  have hbody : StandsIn (parts.body slot) fragment.code :=
    hprints.standsIn (List.mem_of_find?_eq_some hform) (hasSlot_of_parts hparts)
      (hrender.symm.trans hfragment)
  obtain ⟨code, hcode, hlines⟩ := exists_render_of_mem_statements hw hf (o := o) hb hs
  have hwrite : write vocabulary o w s = .ok code := map_eq_ok.2 ⟨_, hcode, rfl⟩
  refine ⟨fragment.code, code, map_eq_ok.2 ⟨_, hfragment, rfl⟩, hwrite, hlines.imp_right And.left,
    ?_⟩
  rcases hlines with rfl | ⟨-, hblank⟩
  · -- a silent statement leaves nothing to look for
    exact .empty _
  · obtain ⟨codes, hcodes, hlaid⟩ := isLaidOut_of_parts hw hf hindent hreturns hb hparts slot
    have hmem := mem_of_mapM_eq_ok hcodes hs hwrite
    -- there is no placeholder where one of the texts is not blank
    rw [if_neg] at hlaid
    · rw [hlaid] at hbody
      refine StandsIn.trans (.of_mem_join ?_ (List.mem_map.2 ⟨code, hmem, rfl⟩)) hbody
      rw [List.forall_mem_map]
      exact fun c hc => endsLine_indentLines (lines_of_mem_codes hw hf hb hcodes c hc) _
    · rw [List.all_eq_true]
      exact fun hall => Bool.false_ne_true (hblank.symm.trans (hall code hmem))

/-- With each body around it, the statement is one indent further in. -/
theorem Nested.standsIn {d : Nat} {p s : BlockId} (h : w.Nested d p s) :
    ∃ text code, write vocabulary o w p = .ok text ∧ write vocabulary o w s = .ok code ∧
      (code = "" ∨ EndsLine code) ∧
      StandsIn (indentLines code (String.join (List.replicate d o.indent))) text := by
  induction h with
  | direct h =>
    rw [List.replicate_one, String.join_cons]
    change ∃ text code, _ ∧ _ ∧ _ ∧ StandsIn (indentLines code (o.indent ++ "")) text
    rw [String.append_empty]
    exact h.standsIn hw hf hindent hreturns
  | @deeper d p q s hq h ih =>
    obtain ⟨text, inner, htext, hinner, -, hstands⟩ := hq.standsIn hw hf hindent hreturns
    obtain ⟨inner', code, hinner', hcode, hlines, hdeep⟩ := ih
    obtain rfl := Except.ok.inj (hinner.symm.trans hinner')
    refine ⟨text, code, htext, hcode, hlines, ?_⟩
    -- the text of `q` is indented as a whole, and what is in it goes along
    have hall := (hdeep.indentLines (endsLine_indentLines hlines _) o.indent).trans hstands
    rwa [indentLines_indentLines (hindent.join_replicate d), ← String.join_cons,
      ← List.replicate_succ] at hall

end

/-- Bodies are laid out from the texts that their statements have on their own. An entry point prints
one body between its header and its registration, a conditional one for each of its arms, and the
other forms print none. A statement that is printed within other bodies is found there as it is
written on its own, with one indent for each of them in front of its lines. -/
theorem write_laysOut (commands : List Command)
    (hroom : (∅ : Workspace).creations commands < wordLimit)
    (huses : ∀ command ∈ commands, command.Uses vocabulary) (o : WritingOptions)
    (hindent : Indent o.indent.toList)
    (hreturns : ((∅ : Workspace).run commands).NoReturns vocabulary o) :
    let w := (∅ : Workspace).run commands
    (∀ id b form, w.find? id = some b → vocabulary.find? b.form = some form →
      ¬ w.IsSilent vocabulary id →
      ∃ p, w.parts vocabulary o (render vocabulary o w) form b id = .ok p ∧
        (∀ slot, w.IsLaidOut vocabulary o (b.statementHead slot) (p.body slot)) ∧
        (form.isContainer = true → ∃ name closing, Frames b.fields form name closing ∧
          write vocabulary o w id =
            .ok ("def " ++ name ++ "():\n" ++ p.globalsLine ++ p.body "DO" ++ closing)) ∧
        (form = controlsIf → ∃ n, FurtherArms b.slots.contains n ∧
          write vocabulary o w id = .ok (armsText p n ++
            if b.slots.contains elseSlot then "else:\n" ++ p.body elseSlot else "")) ∧
        (form.isContainer = false → form ≠ controlsIf →
          ∀ bodies, (form.write { p with bodies }).map Fragment.code = write vocabulary o w id)) ∧
    ∀ d p s, w.Nested d p s → ∃ text code,
      write vocabulary o w p = .ok text ∧ write vocabulary o w s = .ok code ∧
      StandsIn (indentLines code (String.join (List.replicate d o.indent))) text := by
  intro w
  obtain ⟨hw, -⟩ := consistent_run consistent_empty commands (room_empty hroom)
  have hf : w.FormedBy vocabulary := formedBy_run huses
  refine ⟨fun id b form hb hform hsilent => ?_, fun d p s h => ?_⟩
  · have hmem : form ∈ forms := List.mem_of_find?_eq_some hform
    obtain ⟨p, hparts, hrender⟩ := exists_parts hw hf (o := o) hb hform hsilent
    have hwrite : write vocabulary o w id = (form.write p).map Fragment.code :=
      congrArg (Except.map Fragment.code) hrender
    refine ⟨p, hparts, isLaidOut_of_parts hw hf hindent hreturns hb hparts, fun hcontainer => ?_,
      ?_, fun hcontainer hconditional bodies => ?_⟩
    · obtain ⟨-, -, hfields, -⟩ := gathers_of_parts hparts
      obtain ⟨name, closing, hframes, hframe⟩ := exists_frames hmem hcontainer b.fields
      refine ⟨name, closing, hframes, ?_⟩
      rw [hwrite, hframe p hfields]
      rfl
    · rintro rfl
      obtain ⟨n, hn, htext⟩ := exists_writeConditional_eq p
      have hslots : p.hasSlot = b.slots.contains := funext (hasSlot_of_parts hparts)
      rw [hslots] at hn
      rw [lastArm, hslots] at htext
      refine ⟨n, hn, ?_⟩
      rw [hwrite, ← htext]
      rfl
    · rw [hwrite, ← write_congr hmem p (.inr rfl) (.inr rfl) (.inl ⟨hcontainer, hconditional⟩)]
  · obtain ⟨text, code, htext, hcode, -, hstands⟩ := h.standsIn hw hf hindent hreturns
    exact ⟨text, code, htext, hcode, hstands⟩

/-- A picture in a conditional in a loop. The first arm is empty, and a disabled statement is all that
the last one has. -/
theorem write_laysOut_of_picture :
    let commands : List Command :=
      [.create vocabulary "forever" ∅, .create vocabulary "controls_if" ∅, .addElseIf 2, .addElse 2,
        .create vocabulary "basic_show_leds" (.ofList [("MATRIX", .string "#.\n.#")]),
        .create vocabulary "pause" ∅, .setEnabled 4 false, .connectStatement 1 "DO" 2,
        .connectStatement 2 "DO1" 3, .connectStatement 2 "ELSE" 4]
    let o : WritingOptions := { indent := "\t" }
    let w := (∅ : Workspace).run commands
    (∅ : Workspace).creations commands < wordLimit ∧
      (∀ command ∈ commands, command.Uses vocabulary) ∧ Indent o.indent.toList ∧
      w.NoReturns vocabulary o ∧ w.Nested 2 1 3 ∧
      ∃ text, write vocabulary o w 1 = .ok text ∧
        StandsIn ("\t\tbasic.show_leds(\"\"\"\n\t\t# . . . .\n\t\t. # . . .\n\t\t. . . . .\n" ++
          "\t\t. . . . .\n\t\t. . . . .\n\t\t\"\"\")\n") text := by
  intro commands o w
  have h : (∅ : Workspace).creations commands < wordLimit ∧
      (∃ b ∈ w.find? 1, b.form = "forever" ∧ 2 ∈ w.statements (b.statementHead "DO")) ∧
      (∃ b ∈ w.find? 2, b.form = "controls_if" ∧ b.slots.contains (conditionSlot 1) = true ∧
        b.slots.contains (conditionSlot 2) = false ∧
        3 ∈ w.statements (b.statementHead (bodySlot 1))) ∧
      isSuppressed vocabulary w 2 = false ∧
      (∀ id ∈ w.order, ∀ b ∈ w.find? id, ∀ e ∈ b.fields.entries, NoReturn e.2.toText) ∧
      (∀ e ∈ w.variableNames.entries, NoReturn e.2) := by decide +kernel
  obtain ⟨hroom, ⟨b, hb, hname, hslot⟩, ⟨b', hb', hname', hpresent, habsent, hslot'⟩, hactive,
    hfields, hnames⟩ := h
  have hlines : (write vocabulary o w 3).map (indentLines · "\t\t") =
      .ok ("\t\tbasic.show_leds(\"\"\"\n\t\t# . . . .\n\t\t. # . . .\n\t\t. . . . .\n" ++
        "\t\t. . . . .\n\t\t. . . . .\n\t\t\"\"\")\n") := by decide +kernel
  have huses : ∀ command ∈ commands, command.Uses vocabulary := by simp [commands, Command.Uses]
  have hindent : Indent o.indent.toList := ⟨by decide, by decide, by decide⟩
  obtain ⟨hw, -⟩ := consistent_run consistent_empty commands (room_empty hroom)
  have hreturns : w.NoReturns vocabulary o :=
    noReturns_of_entries hw vocabulary hfields hnames (by decide) (by decide)
  have hform : vocabulary.find? b.form = some forever := hname ▸ rfl
  have hform' : vocabulary.find? b'.form = some controlsIf := hname' ▸ rfl
  have hloop : w.PrintsWithin 1 2 := by
    refine ⟨b, forever, "DO", hb, hform, fun hsilent => ?_, .entry rfl, hslot⟩
    exact Bool.false_ne_true (hsilent.gated hb hform)
  have hconditional : w.PrintsWithin 2 3 := by
    refine ⟨b', controlsIf, bodySlot 1, hb', hform', ?_, .arm (n := 1) ⟨?_, habsent⟩ le_rfl, hslot'⟩
    · rintro ⟨-, -, -, -, -, hsuppressed⟩
      exact Bool.false_ne_true (hactive.symm.trans hsuppressed)
    · intro i hi
      obtain rfl : i = 0 := by omega
      exact hpresent
  have hnested : w.Nested 2 1 3 := .deeper hloop (.direct hconditional)
  obtain ⟨-, hdeep⟩ := write_laysOut commands hroom huses o hindent hreturns
  obtain ⟨text, code, htext, hcode, hstands⟩ := hdeep 2 1 3 hnested
  rw [hcode] at hlines
  have hindents : String.join (List.replicate 2 o.indent) = "\t\t" := by decide
  have hindented : indentLines code "\t\t" = _ := Except.ok.inj hlines
  rw [hindents, hindented] at hstands
  exact ⟨hroom, huses, hindent, hreturns, hnested, text, htext, hstands⟩

end Workspace

end ScriptBlocks
