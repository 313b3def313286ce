import Mathlib.Data.List.Induction
import ScriptBlocks.Proofs.Dialect.Frame
import ScriptBlocks.Proofs.Workspace.Body
import ScriptBlocks.Proofs.Writing.Gating
import ScriptBlocks.Proofs.Writing.Parts
import ScriptBlocks.Proofs.Writing.Sections

/-!
# The variables that an entry point declares

An entry point is written as a function, and its body may assign to variables from outside the
function. So it declares the names that the blocks of its body refer to, each of them once and in the
order in which the walk through the body first comes upon them. The names that end up in the text of
the body are just those: a block of the body prints the name that it refers to, and an entry point in
the body declares some of the same names.

## Main definitions

* `Workspace.RefersTo` — the name that the variable of a block stands for
* `Form.PrintsNames` — which names get into the text of a form, and where
* `Workspace.PrintsAmong` — a block of a body prints no names but these

## Main statements

* `Workspace.Consistent.mem_freeVariables_iff` — the names are those that the body refers to
* `Dialect.printsNames` — each built-in form prints its names in one place
* `Workspace.declares_freeVariables` — the names, their order, and the line that declares them
-/

namespace ScriptBlocks

namespace Workspace

/-- The block has a variable, and this is the name that it stands for. -/
def RefersTo (v : Vocabulary) (fallback : String) (w : Workspace) (x : BlockId) (name : String) :
    Prop :=
  ∃ b form field, w.find? x = some b ∧ v.find? b.form = some form ∧
    form.variableField = some field ∧ w.resolveName (b.fields.text field) fallback = name

/-! ### Distinct names -/

theorem distinct_concat (names : List String) (name : String) :
    distinct (names ++ [name]) =
      if name ∈ distinct names then distinct names else distinct names ++ [name] := by
  rw [distinct, List.foldl_append]
  rfl

theorem mem_distinct {names : List String} {name : String} : name ∈ distinct names ↔ name ∈ names := by
  induction names using List.reverseRecOn with
  | nil => rfl
  | append_singleton names last ih =>
    rw [distinct_concat, List.mem_append, List.mem_singleton]
    split
    · next hlast =>
      rw [ih, or_iff_left_of_imp]
      rintro rfl
      exact ih.1 hlast
    · rw [List.mem_append, List.mem_singleton, ih]

theorem nodup_distinct (names : List String) : (distinct names).Nodup := by
  induction names using List.reverseRecOn with
  | nil => exact .nil
  | append_singleton names last ih =>
    rw [distinct_concat]
    split
    · exact ih
    · next hlast =>
      rw [List.nodup_append]
      refine ⟨ih, List.nodup_singleton last, fun m hm n hn hmn => ?_⟩
      rw [List.mem_singleton.1 hn] at hmn
      exact hlast (hmn ▸ hm)

/-- The names that are kept stand in the order in which they first occur. -/
theorem pairwise_distinct (names : List String) :
    (distinct names).Pairwise fun m n => names.idxOf m < names.idxOf n := by
  induction names using List.reverseRecOn with
  | nil => exact .nil
  | append_singleton names last ih =>
    have hold : (distinct names).Pairwise fun m n =>
        (names ++ [last]).idxOf m < (names ++ [last]).idxOf n := by
      refine ih.imp_of_mem fun hm hn h => ?_
      rwa [List.idxOf_append_of_mem (mem_distinct.1 hm), List.idxOf_append_of_mem (mem_distinct.1 hn)]
    rw [distinct_concat]
    split
    · exact hold
    · next hlast =>
      refine List.pairwise_append.2 ⟨hold, List.pairwise_singleton _ _, fun m hm n hn => ?_⟩
      -- a new name first occurs behind all others
      obtain rfl := List.mem_singleton.1 hn
      have hm := mem_distinct.1 hm
      rw [List.idxOf_append_of_mem hm, List.idxOf_append_of_notMem fun h => hlast (mem_distinct.2 h)]
      exact Nat.lt_add_right _ (List.idxOf_lt_length_of_mem hm)

/-! ### The names of a body -/

variable {w : Workspace} {v : Vocabulary} {o : WritingOptions} {c x y : BlockId} {b : Block}
  {fallback name : String}

theorem referencedName_eq_some_iff :
    referencedName v fallback w x = some name ↔ w.RefersTo v fallback x name := by
  rw [referencedName, RefersTo]
  cases w.find? x with
  | none => simp
  | some b =>
    cases hform : v.find? b.form with
    | none => simp [hform]
    | some form => cases hfield : form.variableField <;> simp [hform, hfield]

theorem nodup_freeVariables (v : Vocabulary) (fallback : String) (w : Workspace) (c : BlockId) :
    (freeVariables v fallback w c).Nodup := by
  rw [freeVariables]
  split
  · exact .nil
  · exact nodup_distinct _

namespace Consistent

variable (hw : w.Consistent)
include hw

/-- The variables of a body are those that its blocks refer to. -/
theorem mem_freeVariables_iff :
    name ∈ freeVariables v fallback w c ↔
      ∃ x, w.InBody c x ∧ w.RefersTo v fallback x name := by
  rw [freeVariables]
  split
  · next hnone =>
    refine iff_of_false List.not_mem_nil ?_
    rintro ⟨x, ⟨b, _, _, hb, _⟩, -⟩
    exact Option.some_ne_none b (hb.symm.trans hnone)
  · next b hb =>
    simp only [mem_distinct, List.mem_filterMap, hw.mem_bodyBlocks_iff hb,
      referencedName_eq_some_iff]

/-- They stand in the order in which the walk through the body comes upon them. -/
theorem pairwise_freeVariables (hb : w.find? c = some b) {walk : List BlockId}
    (hwalk : w.Preorder b.statementHeads walk) :
    (freeVariables v fallback w c).Pairwise fun m n =>
      (walk.filterMap (referencedName v fallback w)).idxOf m <
        (walk.filterMap (referencedName v fallback w)).idxOf n := by
  rw [hwalk.unique (hw.preorder_bodyBlocks hb)]
  simp only [freeVariables, hb]
  exact pairwise_distinct _

/-- A block of the body has no variables in its own body but those. -/
theorem freeVariables_subset (hy : w.InBody c y) :
    freeVariables v fallback w y ⊆ freeVariables v fallback w c := by
  intro name hname
  obtain ⟨x, hx, hrefers⟩ := hw.mem_freeVariables_iff.1 hname
  exact hw.mem_freeVariables_iff.2 ⟨x, hw.inBody_trans hy hx, hrefers⟩

end Consistent

end Workspace

/-! ### The names in a text -/

/-- The names get into the text of the form in one place at most: that of its variable at the front,
the declared ones in a line of their own, and neither otherwise. -/
structure Form.PrintsNames (form : Form) : Prop where
  nameless : form.variableField = none → ∀ (p : Parts) (name? : Option String),
    form.write { p with variableName? := name? } = form.write p
  named : form.variableField.isSome → ∀ p : Parts, ∃ rest, ∀ name,
    (form.write { p with variableName? := some name }).map Fragment.code = .ok (name ++ rest)
  undeclaring : form.isContainer = false → ∀ (p : Parts) (names : List String),
    form.write { p with globals := names } = form.write p
  declaring : form.isContainer = true → ∀ p : Parts, ∃ before after, ∀ names,
    (form.write { p with globals := names }).map Fragment.code =
      .ok (before ++ { p with globals := names }.globalsLine ++ after)

namespace Dialect

/-- Each built-in form prints its names in one place. -/
theorem printsNames {form : Form} (hform : form ∈ forms) : form.PrintsNames where
  nameless h p name? := write_congr hform p (.inl h) (.inr rfl) (.inr rfl)
  undeclaring h p names := write_congr hform p (.inr rfl) (.inl h) (.inr rfl)
  named hvariable p := by
    have hmem : form ∈ forms.filter fun f => f.variableField.isSome :=
      List.mem_filter.2 ⟨hform, hvariable⟩
    rw [filter_variable_forms] at hmem
    simp only [List.mem_cons, List.not_mem_nil, or_false] at hmem
    rcases hmem with rfl | rfl | rfl
    · refine ⟨" += " ++ p.value "DELTA" .loosest "1" ++ "\n", fun name => ?_⟩
      simp only [← String.append_assoc]
      rfl
    · refine ⟨" = " ++ p.value "VALUE" .loosest "0" ++ "\n", fun name => ?_⟩
      simp only [← String.append_assoc]
      rfl
    · refine ⟨"", fun name => ?_⟩
      rw [String.append_empty]
      rfl
  declaring hcontainer p := by
    obtain ⟨name, closing, -, hwrite⟩ := exists_frames hform hcontainer p.fields
    refine ⟨"def " ++ name ++ "():\n", p.body "DO" ++ closing, fun names => ?_⟩
    rw [hwrite { p with globals := names } rfl, ← String.append_assoc]
    rfl

end Dialect

namespace Workspace

open Dialect

/-- The block is silent, or its text is what its form makes of parts that have no names but these. -/
def PrintsAmong (v : Vocabulary) (o : WritingOptions) (w : Workspace) (names : List String)
    (y : BlockId) : Prop :=
  w.IsSilent v y ∧ render v o w y = .ok (.statement "") ∨
    ∃ b form p, w.find? y = some b ∧ v.find? b.form = some form ∧ form.PrintsNames ∧
      w.parts v o (render v o w) form b y = .ok p ∧ render v o w y = form.write p ∧
      (∀ name, p.variableName? = some name → name ∈ names) ∧ p.globals ⊆ names

variable {w : Workspace} {o : WritingOptions} {c y : BlockId} {b : Block} {form : Form}

section

variable (hw : w.Consistent) (hf : w.FormedBy vocabulary)
include hw hf

/-- A block that is not silent is written by its form. -/
theorem exists_parts (hb : w.find? y = some b) (hform : vocabulary.find? b.form = some form)
    (hsilent : ¬ w.IsSilent vocabulary y) :
    ∃ p, w.parts vocabulary o (render vocabulary o w) form b y = .ok p ∧
      render vocabulary o w y = form.write p := by
  obtain ⟨fragment, hrender, -⟩ := exists_render_fits hw hf (o := o) hb
  have hwrite := render_of_not_isSilent hw (o := o) hb hform hsilent
  rw [hwrite, bind_eq_ok] at hrender
  obtain ⟨p, hparts, -⟩ := hrender
  rw [hparts] at hwrite
  exact ⟨p, hparts, hwrite⟩

theorem exists_parts_of_isSuppressed_eq_false (hb : w.find? y = some b)
    (hform : vocabulary.find? b.form = some form) (hactive : isSuppressed vocabulary w y = false) :
    ∃ p, w.parts vocabulary o (render vocabulary o w) form b y = .ok p ∧
      render vocabulary o w y = form.write p := by
  refine exists_parts hw hf hb hform ?_
  rintro ⟨-, -, -, -, -, hsuppressed⟩
  exact Bool.false_ne_true (hactive.symm.trans hsuppressed)

/-- The names that get into the texts of a body are variables of the body. -/
theorem printsAmong_of_inBody (hy : w.InBody c y) :
    w.PrintsAmong vocabulary o (freeVariables vocabulary o.fallbackVariable w c) y := by
  obtain ⟨b, hb⟩ := contains_iff_find?.1 (hw.above_of_inBody hy).contains_right
  obtain ⟨form, hform, -⟩ := hf hb
  by_cases hsilent : w.IsSilent vocabulary y
  · exact .inl ⟨hsilent, render_of_isSilent hw hsilent⟩
  · obtain ⟨p, hparts, hwrite⟩ := exists_parts hw hf (o := o) hb hform hsilent
    obtain ⟨-, -, -, hname, hglobals⟩ := gathers_of_parts hparts
    refine .inr ⟨b, form, p, hb, hform, printsNames (List.mem_of_find?_eq_some hform), hparts, hwrite,
      fun name hsome => ?_, ?_⟩
    · rw [hname, Option.map_eq_some_iff] at hsome
      obtain ⟨field, hfield, hresolve⟩ := hsome
      exact hw.mem_freeVariables_iff.2 ⟨y, hy, b, form, field, hb, hform, hfield, hresolve⟩
    · rw [hglobals]
      split
      · exact hw.freeVariables_subset hy
      · exact List.nil_subset _

/-- The text of an entry point: the header, the declaration, and the body. -/
theorem exists_write_entry (hb : w.find? c = some b) (hform : vocabulary.find? b.form = some form)
    (hcontainer : form.isContainer = true) :
    ∃ name closing code, Frames b.fields form name closing ∧
      w.bodyText (render vocabulary o w) (b.statementHead "DO") = .ok code ∧
      write vocabulary o w c = .ok ("def " ++ name ++ "():\n" ++
        (if freeVariables vocabulary o.fallbackVariable w c = [] then ""
          else o.indent ++ "global " ++
            ", ".intercalate (freeVariables vocabulary o.fallbackVariable w c) ++ "\n") ++
        Layout.block (Layout.indentLines code o.indent) o.indent o.emptyBody ++ closing) := by
  have hmem : form ∈ forms := List.mem_of_find?_eq_some hform
  have hsilent : ¬ w.IsSilent vocabulary c := by
    intro hsilent
    have hnot := not_isContainer_of_gated hmem (hsilent.gated hb hform)
    exact Bool.false_ne_true (hnot.symm.trans hcontainer)
  obtain ⟨p, hparts, hrender⟩ := exists_parts hw hf (o := o) hb hform hsilent
  obtain ⟨-, hoptions, hfields, -, hglobals⟩ := gathers_of_parts hparts
  obtain ⟨code, hcode, hbody⟩ := body_of_parts hparts "DO"
  obtain ⟨name, closing, hframes, hwrite⟩ := exists_frames hmem hcontainer b.fields
  rw [if_pos hcontainer] at hglobals
  refine ⟨name, closing, code, hframes, hcode, ?_⟩
  rw [write, hrender, hwrite p hfields, hbody, Parts.globalsLine, hglobals, hoptions]
  rfl

end

/-- The variables that an entry point declares are distinct, and they are the names that the blocks of
its body refer to, in the order in which the walk through the body comes upon them. Neither the block
itself is in the body, nor is what comes after it, what it holds as values or what is in another
stack. With the built-in forms no other names get into the text of the body, and the declaration is
one line behind the header, or none if there is nothing to declare. -/
theorem declares_freeVariables (commands : List Command)
    (hroom : (∅ : Workspace).creations commands < wordLimit) (v : Vocabulary) (o : WritingOptions)
    {c : BlockId} {b : Block} (hb : ((∅ : Workspace).run commands).find? c = some b) :
    let w := (∅ : Workspace).run commands
    let names := freeVariables v o.fallbackVariable w c
    names.Nodup ∧
    (∀ name, name ∈ names ↔ ∃ x, w.InBody c x ∧ w.RefersTo v o.fallbackVariable x name) ∧
    (∃ walk, w.Preorder b.statementHeads walk ∧ (∀ x, x ∈ walk ↔ w.InBody c x) ∧
      names.Pairwise fun m n =>
        (walk.filterMap (referencedName v o.fallbackVariable w)).idxOf m <
          (walk.filterMap (referencedName v o.fallbackVariable w)).idxOf n) ∧
    (∀ x, w.InBody c x → x ≠ c ∧ (∀ next, b.next = some next → x ≠ next ∧ ¬ w.Above next x) ∧
      (∀ check child, .value check (some child) ∈ b.slots.values → x ≠ child ∧ ¬ w.Above child x) ∧
      w.rootOf x = w.rootOf c) ∧
    (v = vocabulary → (∀ command ∈ commands, command.Uses vocabulary) →
      (∀ y, w.InBody c y → w.PrintsAmong v o names y) ∧
      ∀ form, v.find? b.form = some form → form.isContainer = true →
        ∃ name closing code, Frames b.fields form name closing ∧
          w.bodyText (render v o w) (b.statementHead "DO") = .ok code ∧
          write v o w c = .ok ("def " ++ name ++ "():\n" ++
            (if names = [] then "" else o.indent ++ "global " ++ ", ".intercalate names ++ "\n") ++
            Layout.block (Layout.indentLines code o.indent) o.indent o.emptyBody ++ closing)) := by
  intro w names
  obtain ⟨hw, -⟩ := consistent_run consistent_empty commands (room_empty hroom)
  have hwalk := hw.preorder_bodyBlocks hb
  refine ⟨nodup_freeVariables v _ w c, fun name => hw.mem_freeVariables_iff,
    ⟨_, hwalk, fun x => hw.mem_bodyBlocks_iff hb, hw.pairwise_freeVariables hb hwalk⟩,
    fun x hx => hw.inBody_apart hb hx, ?_⟩
  rintro rfl huses
  have hf : w.FormedBy vocabulary := formedBy_run huses
  exact ⟨fun y hy => printsAmong_of_inBody hw hf hy,
    fun form hform hcontainer => exists_write_entry hw hf hb hform hcontainer⟩

/-- An entry point in another one. The first name is that of a key of the host, and the last one stands
for a name that is missing; the variable of the other stack is not declared. -/
theorem declares_freeVariables_of_nested :
    let commands : List Command :=
      [.declareVariable "k1" "score", .create vocabulary "on_start" ∅,
        .create vocabulary "forever" ∅,
        .create vocabulary "variables_set" (.ofList [("VAR", .string "k1")]),
        .create vocabulary "variables_get" (.ofList [("VAR", .string "count")]),
        .create vocabulary "math_change" (.ofList [("VAR", .string "")]),
        .create vocabulary "math_change" (.ofList [("VAR", .string "count")]),
        .create vocabulary "variables_set" (.ofList [("VAR", .string "other")]),
        .connectStatement 1 "DO" 2, .connectStatement 2 "DO" 3, .connectValue 3 "VALUE" 4,
        .append 2 5, .append 5 6]
    let w := (∅ : Workspace).run commands
    (∅ : Workspace).creations commands < wordLimit ∧
      (∀ command ∈ commands, command.Uses vocabulary) ∧
      (∀ name, name ∈ ["score", "count", "x"] ↔
        ∃ x, w.InBody 1 x ∧ w.RefersTo vocabulary "x" x name) ∧
      (∀ y, w.InBody 1 y → w.PrintsAmong vocabulary {} ["score", "count", "x"] y) ∧
      ∃ code, write vocabulary {} w 1 = .ok ("def on_start():\n    global score, count, x\n" ++
        Layout.block (Layout.indentLines code "    ") "    " "pass" ++ "\non_start()\n") := by
  intro commands w
  have h : (∅ : Workspace).creations commands < wordLimit ∧
      (∃ b ∈ w.find? 1, b.form = "on_start") ∧
      freeVariables vocabulary "x" w 1 = ["score", "count", "x"] := by decide +kernel
  obtain ⟨hroom, ⟨b, hb, hname⟩, hfree⟩ := h
  have huses : ∀ command ∈ commands, command.Uses vocabulary := by simp [commands, Command.Uses]
  have hform : vocabulary.find? b.form = some onStart := hname ▸ rfl
  obtain ⟨-, hnames, -, -, hbuiltIn⟩ := declares_freeVariables commands hroom vocabulary {} hb
  obtain ⟨hprints, hentry⟩ := hbuiltIn rfl huses
  obtain ⟨name, closing, code, hframes, -, hwrite⟩ := hentry onStart hform rfl
  rw [hfree] at hnames hprints hwrite
  generalize hentry : onStart = entry at hframes
  cases hframes with
  | onStart => exact ⟨hroom, huses, hnames, hprints, code, hwrite⟩
  | forever | onButtonPressed => exact absurd (congrArg Form.name hentry) (by decide)

end Workspace

end ScriptBlocks
