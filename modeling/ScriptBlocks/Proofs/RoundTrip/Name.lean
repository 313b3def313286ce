import ScriptBlocks.Proofs.Run
import ScriptBlocks.Proofs.Writing.Assignment

/-!
# Names in source text

A name that is read off a line is written again as it is, unless the writer takes it for a key of
the host. Names of eight or more hexadecimal digits are taken for keys, and all of them are written
as one and the same name.

## Main definitions

* `shownName` — the name that is written where no name is declared

## Main statements

* `Workspace.readDocument_name` — what becomes of a name in a line
* `Workspace.names_like_keys_merged` — two names that are written as one
-/

namespace ScriptBlocks

open Expression Dialect

/-- The name that is written for a name in the source where the host has declared none. -/
def shownName (name : String) : String := if looksLikeKey name then "x" else name

theorem shownName_eq_iff {s t : String} : shownName s = shownName t ↔ s = t ∨
    (looksLikeKey s = true ∧ (looksLikeKey t = true ∨ t = "x")) ∨
      (s = "x" ∧ looksLikeKey t = true) := by
  have hx {t : String} (ht : looksLikeKey t = true) : t ≠ "x" := by
    rintro rfl
    exact absurd ht (by decide)
  have hne {s t : String} (hs : looksLikeKey s = false) (ht : looksLikeKey t = true) : s ≠ t := by
    rintro rfl
    exact nomatch hs.symm.trans ht
  rw [shownName, shownName]
  cases hs : looksLikeKey s with
  | false =>
    cases ht : looksLikeKey t with
    | false => simp
    | true => simp [hne hs ht]
  | true =>
    cases ht : looksLikeKey t with
    | false => simp [(hne ht hs).symm, hx hs, eq_comm]
    | true => simp

theorem shownName_ne_empty {s : String} (h : s ≠ "") : shownName s ≠ "" := by
  rw [shownName]
  split
  · decide
  · exact h

namespace Workspace

variable {w : Workspace} {o : WritingOptions} {u : BlockId} {name : String}

theorem resolveName_fallback (hnames : w.variableNames = ∅) (hne : name ≠ "") :
    w.resolveName name "x" = shownName name := by
  have hname : w.variableName? name = none := by
    rw [variableName?, hnames]
    rfl
  rw [resolveName, hname, shownName]
  simp [hne]

theorem renderWithin_name {depth : Nat} (h : Holds w.find? u (.leaf (.name name))) :
    renderWithin vocabulary o w (depth + 1) u =
      .ok (.expression (w.resolveName name o.fallbackVariable) .atomic) := by
  obtain ⟨b, hb, hform, hfields, hslots⟩ := h
  have hvar : b.fields.text "VAR" = name := Fields.text_eq (hfields _ List.mem_cons_self)
  obtain ⟨p, hparts, -, hvariable⟩ :=
    w.parts_single variablesGet o (renderWithin vocabulary o w depth) u hslots
  have hget : vocabulary.get b.form = .ok variablesGet := by
    rw [hform]
    exact (Leaf.name name).get_form
  rw [renderWithin, get_of_find? hb]
  simp only [bind, Except.bind, hget, hparts]
  change Except.ok (Fragment.expression (variableName p) .atomic) = _
  have hfield : p.variableName? = some (w.resolveName name o.fallbackVariable) := by
    rw [hvariable, ← hvar]
    rfl
  rw [variableName, hfield, Option.getD_some]

/-- A name that can stand in an expression comes back from the line that assigns it and from the line
that assigns its value, unless it looks like a host's key: then both have the fallback instead. So
two names become one just if both look like keys, or one does and the other is the fallback. -/
theorem readDocument_name (commands : List Command) {s : String} (hs : Leaf.IsName s)
    (hnames : ((∅ : Workspace).run commands).variableNames = ∅)
    (hset : (∅ : Workspace).creations
      (commands ++ [.readDocument {} vocabulary (s ++ " = 1")]) < wordLimit)
    (hget : (∅ : Workspace).creations
      (commands ++ [.readDocument {} vocabulary ("y = " ++ s)]) < wordLimit) :
    (∃ p w', ((∅ : Workspace).run commands).readDocument {} vocabulary (s ++ " = 1") =
        ({ blocks := [p], unmatched := [], failures := [], unlinked := 0 }, w') ∧
      w'.write vocabulary {} p = .ok (shownName s ++ " = 1\n")) ∧
    (∃ p w', ((∅ : Workspace).run commands).readDocument {} vocabulary ("y = " ++ s) =
        ({ blocks := [p], unmatched := [], failures := [], unlinked := 0 }, w') ∧
      w'.write vocabulary {} p = .ok ("y = " ++ shownName s ++ "\n")) ∧
    (looksLikeKey s = false → shownName s = s) ∧
    ∀ t, shownName s = shownName t ↔ s = t ∨
      (looksLikeKey s = true ∧ (looksLikeKey t = true ∨ t = "x")) ∨
        (s = "x" ∧ looksLikeKey t = true) := by
  have hne : s ≠ "" := fun h => (Leaf.IsName.plain hs).2 (String.toList_eq_nil_iff.2 h)
  refine ⟨?_, ?_, fun hkey => ?_, fun t => shownName_eq_iff⟩
  · have hone : (Leaf.number (.int 1)).Valid := ⟨by decide, by rintro _ ⟨⟩⟩
    have hline : s ++ " = 1" = s ++ " = " ++ .ofList (Leaf.number (.int 1)).code.toList := by
      rw [String.append_assoc]
      rfl
    obtain ⟨hw, hroom⟩ := ready_of_creations hset
    obtain ⟨p, u, w', hread, hplants, hassigns, hholds⟩ :=
      readDocument_assignment (.leaf 0 (.code hone)) trivial hs.identifier hline hw hroom
    refine ⟨p, w', hread, ?_⟩
    have hnames' := hplants.variableNames_eq.trans hnames
    have hu := renderWithin_holds (o := {}) hholds hone trivial hnames'
      (hplants.consistent.height_le_size hholds)
    rw [write, Workspace.render, renderWithin_sets hassigns hu (by decide),
      resolveName_fallback hnames' hne, String.append_assoc, String.append_assoc]
    rfl
  · have hy : IsIdentifier "y".toList := ⟨'y', [], rfl, by decide, fun _ hd => absurd hd List.not_mem_nil⟩
    obtain ⟨hw, hroom⟩ := ready_of_creations hget
    have hname : (Leaf.name s).Spelled s.toList := .code (l := .name s) hs
    obtain ⟨p, u, w', hread, hplants, hassigns, hholds⟩ :=
      readDocument_assignment (.leaf 0 hname) trivial hy (by rw [String.ofList_toList]; rfl) hw hroom
    refine ⟨p, w', hread, ?_⟩
    have hnames' := hplants.variableNames_eq.trans hnames
    obtain ⟨n, hn⟩ : ∃ n, w'.size = n + 1 :=
      Nat.exists_eq_add_of_le' (hplants.consistent.height_le_size hholds)
    have hu : renderWithin vocabulary {} w' (n + 1) u = _ := renderWithin_name hholds
    rw [resolveName_fallback hnames' hne, ← hn] at hu
    rw [write, Workspace.render, renderWithin_sets hassigns hu (shownName_ne_empty hne),
      resolveName_fallback hnames' (by decide)]
    rfl
  · rw [shownName, hkey]
    rfl

/-- A name with too few digits for a key, in a workspace that has a variable of that name. -/
theorem readDocument_name_of_beef :
    let commands : List Command := [.create vocabulary "variables_get" (fields [("VAR", "beef")])]
    (∃ p w', ((∅ : Workspace).run commands).readDocument {} vocabulary "beef = 1" =
        ({ blocks := [p], unmatched := [], failures := [], unlinked := 0 }, w') ∧
      w'.write vocabulary {} p = .ok "beef = 1\n") ∧
    (∃ p w', ((∅ : Workspace).run commands).readDocument {} vocabulary "y = beef" =
        ({ blocks := [p], unmatched := [], failures := [], unlinked := 0 }, w') ∧
      w'.write vocabulary {} p = .ok "y = beef\n") ∧
    ∀ t, shownName t = "beef" ↔ t = "beef" := by
  intro commands
  have hname : Leaf.IsName "beef" :=
    ⟨⟨'b', "eef".toList, rfl, by decide, by decide⟩, by decide, by decide⟩
  have hassignment : (∅ : Workspace).creations
      (commands ++ [.readDocument {} vocabulary "beef = 1"]) < wordLimit :=
    creations_readDocument_lt takesAtMost_vocabulary Nat.two_pos (by decide)
  have huse : (∅ : Workspace).creations
      (commands ++ [.readDocument {} vocabulary "y = beef"]) < wordLimit :=
    creations_readDocument_lt takesAtMost_vocabulary Nat.two_pos (by decide)
  obtain ⟨hset, hget, hsame, hmerged⟩ := readDocument_name commands hname rfl hassignment huse
  have hkey : looksLikeKey "beef" = false := by decide
  rw [hsame hkey] at hset hget hmerged
  refine ⟨hset, hget, fun t => ?_⟩
  have hx : "beef" ≠ "x" := by decide
  rw [eq_comm, hmerged t, hkey, eq_comm]
  simp [hx]

/-- Two names that look like keys are written as one, and as neither of them. -/
theorem names_like_keys_merged :
    Leaf.IsName "deadbeef" ∧ Leaf.IsName "cafebabe" ∧
      ∀ s ∈ ["deadbeef", "cafebabe"],
        let w := ((∅ : Workspace).readDocument {} vocabulary (s ++ " = 1")).2
        let w' := ((∅ : Workspace).readDocument {} vocabulary ("y = " ++ s)).2
        write vocabulary {} w 1 = .ok "x = 1\n" ∧ write vocabulary {} w' 1 = .ok "y = x\n" := by
  refine ⟨⟨⟨'d', "eadbeef".toList, rfl, by decide, by decide⟩, by decide, by decide⟩,
    ⟨⟨'c', "afebabe".toList, rfl, by decide, by decide⟩, by decide, by decide⟩, ?_⟩
  decide +kernel

end Workspace

end ScriptBlocks
