import ScriptBlocks.Proofs.Dialect.Literal
import ScriptBlocks.Proofs.Run
import ScriptBlocks.Proofs.Writing.Assignment

/-!
# Writing and reading a text

A text that is assigned is written with escapes, but it is read without regard to them. So it comes
back as it was exactly if nothing in it had to be escaped.

## Main statements

* `Workspace.readDocument_writtenText_iff` — which texts come back
-/

namespace ScriptBlocks.Workspace

open Dialect

variable {w : Workspace} {o : WritingOptions} {u : BlockId} {s : String}

theorem isSingle_text : IsSingle text (some .string) := ⟨rfl, rfl, rfl, fun _ _ _ => rfl⟩

/-- A block for a text is written as a string literal. -/
theorem renderWithin_text {depth : Nat}
    (h : (text.arrangement (some .string) [("TEXT", .string s)]).At w.find? u) :
    renderWithin vocabulary o w (depth + 1) u = .ok (.expression (Json.quote s) .atomic) := by
  obtain ⟨b, hb, hform, hfields, hslots⟩ := h
  obtain ⟨p, hparts, hsame, -⟩ :=
    w.parts_single text o (renderWithin vocabulary o w depth) u hslots
  have htext : p.fieldText "TEXT" = s := by
    rw [Parts.fieldText, hsame]
    exact Fields.text_eq (hfields _ List.mem_cons_self)
  have hgated : text.gated = false := rfl
  have hget : vocabulary.get text.name = .ok text := rfl
  rw [renderWithin, get_of_find? hb]
  simp only [bind, Except.bind, hform, hget, hgated, Bool.false_and, Bool.false_eq_true, if_false,
    hparts]
  change Except.ok (Fragment.expression (Json.quote (p.fieldText "TEXT")) .atomic) = _
  rw [htext]

theorem isValueText_quote (s : String) : IsValueText (Json.quote s).toList := by
  have hcontrol {c : Char} (hc : c.toNat < 32) : c ∉ (Json.quote s).toList := by
    rw [toList_quote]
    intro hmem
    rcases List.mem_cons.1 hmem with rfl | hmem
    · exact absurd hc (by decide)
    · rcases List.mem_append.1 hmem with hmem | hmem
      · exact absurd hc (Nat.not_lt.2 (Json.le_toNat_of_mem_escape hmem))
      · rw [List.mem_singleton.1 hmem] at hc
        exact absurd hc (by decide)
  refine ⟨?_, ?_, ⟨hcontrol (by decide), hcontrol (by decide)⟩, ?_⟩
  · rw [toList_quote]
    exact List.cons_ne_nil _ _
  · rw [toList_quote]
    exact trimmed_quoted _
  · rw [toList_quote]
    exact fun h => absurd (Option.some.inj h) (by decide)

theorem bare_quote (s : String) : Expression.bare (Json.quote s) = Json.quote s := by
  have hbare := Expression.bare_of_unwrap? (trimmed_quoted (Json.escape s.toList))
    (unwrap?_quoted _)
  rwa [← toList_quote, String.ofList_toList] at hbare

/-- A literal is read as what stands between its quotes, unless a quote is among it. -/
theorem attachesAs_quote {depth : Nat} (hquote : '"' ∉ Json.escape s.toList) (hdepth : 0 < depth) :
    AttachesAs depth (Json.quote s)
      (text.arrangement (some .string) [("TEXT", .string (.ofList (Json.escape s.toList)))]) := by
  have hne : Json.quote s ≠ "" := fun h => nomatch (toList_quote s).symm.trans (congrArg _ h)
  have hform := expressionFor_quoted hquote
  rw [← toList_quote, String.ofList_toList] at hform
  refine attachesAs_of_takes isSingle_text (by simp) (Vocabulary.argument?_eq_ok_iff.2 ?_) hdepth
  rw [bare_quote]
  exact ⟨hne, hform⟩

/-- Whatever commands have made the workspaces, a block in one of them that assigns a text is written
as one line. The line is read in the other as an assignment of the same text if and only if each
character of the text stands for itself in a string literal. -/
theorem readDocument_writtenText_iff (source target : List Command) {p u : BlockId}
    {name s : String} (hsource : (∅ : Workspace).creations source < wordLimit)
    (htarget : (∅ : Workspace).creations (target ++
      [.readDocument {} vocabulary (name ++ " = " ++ Json.quote s ++ "\n")]) < wordLimit)
    (hnames : ((∅ : Workspace).run source).variableNames = ∅)
    (h : ((∅ : Workspace).run source).Assigns p name u) (hname : IsIdentifier name.toList)
    (hkey : looksLikeKey name = false)
    (ht : (text.arrangement (some .string) [("TEXT", .string s)]).At
      ((∅ : Workspace).run source).find? u) :
    (∀ o, ((∅ : Workspace).run source).write vocabulary o p =
        .ok (name ++ " = " ++ Json.quote s ++ "\n")) ∧
      ((∃ p' u' w', ((∅ : Workspace).run target).readDocument {} vocabulary
            (name ++ " = " ++ Json.quote s ++ "\n") =
          ({ blocks := [p'], unmatched := [], failures := [], unlinked := 0 }, w') ∧
        w'.Assigns p' name u' ∧
          (text.arrangement (some .string) [("TEXT", .string s)]).At w'.find? u') ↔
        ∀ c ∈ s.toList, Json.isVerbatim c = true) := by
  have hne : name ≠ "" := by
    rintro rfl
    obtain ⟨c, cs, hc, -⟩ := hname
    exact nomatch hc
  have hcode : Json.quote s ≠ "" := fun h => nomatch (toList_quote s).symm.trans (congrArg _ h)
  obtain ⟨hw, -⟩ := consistent_run consistent_empty source (room_empty hsource)
  obtain ⟨hw', hroom⟩ := ready_of_creations htarget
  have hline : name ++ " = " ++ Json.quote s ++ "\n" =
      .ofList (Setting.assign.line name.toList (Json.quote s).toList ++ ['\n']) :=
    (Setting.assign.ofList_line ..).symm
  refine ⟨fun o => ?_, ?_⟩
  · obtain ⟨b, hb, -⟩ := id ht
    have hsize := Nat.lt_of_le_of_lt (Nat.zero_le _) (hw.depth_lt_size (contains_of_find? hb))
    obtain ⟨d, hd⟩ := Nat.exists_eq_add_of_le' hsize
    rw [write, Workspace.render, hd,
      renderWithin_setting h (renderWithin_text ht) hcode hnames hne hkey]
    rfl
  · rw [hline] at hroom ⊢
    by_cases hquote : '"' ∈ Json.escape s.toList
    · -- the literal is not read as a text at all
      apply iff_of_false
      · rintro ⟨p', u', w', hread, hsets, child, hchild, hform, -⟩
        obtain ⟨form, c, child', hmatch, hchild', hform'⟩ := form_of_readDocument_setting
          (k := .assign) (.inr rfl) (isValueText_quote s) hname hw' hroom hread rfl hsets
        obtain rfl := Option.some.inj (hchild.symm.trans hchild')
        rw [String.ofList_toList, bare_quote, ← String.ofList_toList (s := Json.quote s),
          toList_quote] at hmatch
        exact form_ne_text_of_mem hquote hmatch (hform'.symm.trans hform)
      · intro hverbatim
        rw [Json.escape_eq_self hverbatim] at hquote
        exact absurd (hverbatim _ hquote) (by decide)
    · -- it is read as the text that the escapes leave
      have hattach : AttachesAs (Setting.assign.line name.toList (Json.quote s).toList).length
          (.ofList (Json.quote s).toList)
          (text.arrangement (some .string) [("TEXT", .string (.ofList (Json.escape s.toList)))]) := by
        rw [String.ofList_toList]
        exact attachesAs_quote hquote (Nat.zero_lt_of_lt (Setting.length_lt_line ..))
      obtain ⟨p', u', w', hread, -, hsets, hfound⟩ := readDocument_setting (.inr rfl)
        (isValueText_quote s) hattach rfl hname hw' hroom
      have htext := Arrangement.of_since hfound
      rw [String.ofList_toList] at hsets
      rw [← Json.escape_eq_self_iff]
      constructor
      · rintro ⟨p₂, u₂, w₂, hread₂, hsets₂, child₂, hchild₂, -, hfields₂, -⟩
        obtain ⟨houtcome, rfl⟩ := Prod.mk.inj (hread.symm.trans hread₂)
        obtain rfl : p' = p₂ := List.singleton_inj.1 (congrArg Outcome.blocks houtcome)
        obtain rfl : u' = u₂ := hsets.unique hsets₂
        obtain ⟨child, hchild, -, hfields, -⟩ := htext
        obtain rfl := Option.some.inj (hchild.symm.trans hchild₂)
        have hescaped : child.fields.find? "TEXT" = some (.string (.ofList (Json.escape s.toList))) :=
          hfields _ List.mem_cons_self
        have hplain : child.fields.find? "TEXT" = some (.string s) := hfields₂ _ List.mem_cons_self
        have hvalue := Value.string.inj (Option.some.inj (hescaped.symm.trans hplain))
        rw [← String.toList_ofList (l := Json.escape s.toList), hvalue]
      · intro hsame
        rw [hsame, String.ofList_toList] at htext
        exact ⟨p', u', w', hread, hsets, htext⟩

/-- A greeting, with nothing to escape in it. -/
theorem readDocument_writtenText_of_greeting :
    let source : List Command :=
      [.create vocabulary "variables_set" (fields [("VAR", "y")]),
        .create vocabulary "text" (fields [("TEXT", "hello")]), .connectValue 1 "VALUE" 2]
    (∀ o, ((∅ : Workspace).run source).write vocabulary o 1 =
        .ok ("y" ++ " = " ++ Json.quote "hello" ++ "\n")) ∧
      ((∃ p' u' w', ((∅ : Workspace).run []).readDocument {} vocabulary
            ("y" ++ " = " ++ Json.quote "hello" ++ "\n") =
          ({ blocks := [p'], unmatched := [], failures := [], unlinked := 0 }, w') ∧
        w'.Assigns p' "y" u' ∧
          (text.arrangement (some .string) [("TEXT", .string "hello")]).At w'.find? u') ↔
        ∀ c ∈ "hello".toList, Json.isVerbatim c = true) := by
  intro source
  have hname : IsIdentifier "y".toList := ⟨'y', [], rfl, by decide, nofun⟩
  have htext : (text.arrangement (some .string) [("TEXT", .string "hello")]).At
      ((∅ : Workspace).run source).find? 2 :=
    ⟨{ Block.ofTemplate 2 "text" text.template (fields [("TEXT", "hello")]) with parent := some 1 },
      by decide +kernel, rfl, by decide +kernel, rfl⟩
  have hassigns : ((∅ : Workspace).run source).Sets .assign 1 "y" 2 := by decide +kernel
  have htarget : (∅ : Workspace).creations
      ([] ++ [.readDocument {} vocabulary ("y" ++ " = " ++ Json.quote "hello" ++ "\n")]) < wordLimit :=
    creations_readDocument_lt takesAtMost_vocabulary Nat.two_pos (by decide)
  exact readDocument_writtenText_iff source [] (by decide) htarget rfl hassigns hname (by decide)
    htext

/-- A text with quotes in it is lost, and one with a backslash in it gains another. -/
theorem escaped_text_not_read :
    let source (s : String) : List Command :=
      [.create vocabulary "variables_set" (fields [("VAR", "y")]),
        .create vocabulary "text" (fields [("TEXT", .string s)]), .connectValue 1 "VALUE" 2]
    let values (document : String) : List (Option (String × Option Value)) :=
      [1, 2].map fun id => (((∅ : Workspace).readDocument {} vocabulary document).2.find? id).map
        fun b => (b.form, b.fields.find? "TEXT")
    ((∅ : Workspace).run (source "say \"hi\"")).write vocabulary {} 1 =
        .ok "y = \"say \\\"hi\\\"\"\n" ∧
      values "y = \"say \\\"hi\\\"\"\n" = [some ("variables_set", none), none] ∧
      ((∅ : Workspace).run (source "a\\b")).write vocabulary {} 1 = .ok "y = \"a\\\\b\"\n" ∧
      values "y = \"a\\\\b\"\n" =
        [some ("variables_set", none), some ("text", some (.string "a\\\\b"))] := by
  decide +kernel

end ScriptBlocks.Workspace
