import ScriptBlocks.Proofs.Reading.Build
import ScriptBlocks.Proofs.Text.Line

/-!
# What reading a document comes to

Each line that becomes a block adds one tree of new blocks, and chaining the trees touches only new
blocks, so after a document has been read the new blocks are the trees of its lines and the old ones
are as they were.

## Main definitions

* `Workspace.readLineCreations`, `Workspace.readLinesCreations`, `Workspace.readAsCreations` — how
  many blocks are created on the way
* `Workspace.Plants` — the new blocks are the trees beneath some of them
* `Workspace.ReadsLine` — what may become of a line
* `Workspace.Accounts` — what the result of a line says about the line

## Main statements

* `Workspace.readLine_of_match`, `Workspace.readDocument_of_line` — what is read off a single line
* `Workspace.readLines_spec` — reading lines plants the blocks that it reports
* `Workspace.Plants.linkAll` — chaining leaves them planted
* `Workspace.readAs_spec` — a text read with a given form
-/

namespace ScriptBlocks

/-- The block that a line became, if it became one. -/
def LineResult.block? : LineResult → Option BlockId
  | .built id => some id
  | _ => none

theorem Outcome.blocks_ofResults (results : List LineResult) (unlinked : Nat) :
    (ofResults results unlinked).blocks = results.filterMap LineResult.block? := by
  refine congrArg (fun f => List.filterMap f results) (funext fun result => ?_)
  cases result <;> rfl

namespace Workspace

/-! ### Counting -/

/-- How many blocks are created when a line is read. -/
def readLineCreations (o : ReadingOptions) (v : Vocabulary) (w : Workspace) (line : String) : Nat :=
  let line := String.ofList (Text.trim line.toList)
  if o.ignores line then 0
  else match v.firstMatch line with
    | none => 0
    | some (form, c) => buildCreations v w line form c

/-- How many blocks are created when lines are read one after the other. -/
def readLinesCreations (o : ReadingOptions) (v : Vocabulary) : List String → Workspace → Nat
  | [], _ => 0
  | line :: lines, w =>
    readLineCreations o v w line + readLinesCreations o v lines (w.readLine o v line).2

/-- How many blocks are created when a document is read. Chaining creates none. -/
def readDocumentCreations (o : ReadingOptions) (v : Vocabulary) (w : Workspace) (text : String) :
    Nat :=
  readLinesCreations o v ((Text.documentLines text.toList).map String.ofList) w

/-- How many blocks are created when a text is read with the form of a given name. -/
def readAsCreations (v : Vocabulary) (w : Workspace) (text form : String) : Nat :=
  match v.get form with
  | .error _ => 0
  | .ok f =>
    match f.matchIn text with
    | none => 0
    | some c => buildCreations v w text f c

variable {o : ReadingOptions} {v : Vocabulary} {w w₁ w' : Workspace} {id : BlockId}
  {ids ids' : List BlockId} {form : String}

/-! ### Planting -/

/-- `w'` has every block of `w` as it was, and the new ones are the blocks `ids`, which are roots
unless they were chained to each other, and all that hangs beneath them. -/
structure Plants (w w' : Workspace) (ids : List BlockId) : Prop extends Extends w w' where
  sorted : ids.Pairwise (· < ·)
  lt_of_mem {id : BlockId} : id ∈ ids → w.lastId < id
  contains_of_mem {id : BlockId} : id ∈ ids → w'.contains id = true
  exists_above {x : BlockId} : w.lastId < x → w'.contains x = true →
    ∃ id ∈ ids, x = id ∨ w'.Above id x

/-- Every block of `w` is a block of the same form in `w'`. -/
def KeepsForms (w w' : Workspace) : Prop :=
  ∀ ⦃x b⦄, w.find? x = some b → ∃ b', w'.find? x = some b' ∧ b'.form = b.form

theorem KeepsForms.refl (w : Workspace) : w.KeepsForms w := fun _ b hb => ⟨b, hb, rfl⟩

theorem KeepsForms.trans (h : w.KeepsForms w₁) (h' : w₁.KeepsForms w') : w.KeepsForms w' := by
  intro x b hb
  obtain ⟨b₁, hb₁, hform₁⟩ := h hb
  obtain ⟨b', hb', hform'⟩ := h' hb₁
  exact ⟨b', hb', hform'.trans hform₁⟩

theorem Extends.keepsForms (hw : w.Consistent) (h : w.Extends w') : w.KeepsForms w' :=
  fun _ b hb => ⟨b, (h.find?_eq (hw.le_lastId (contains_of_find? hb))).trans hb, rfl⟩

theorem Leaves.plants (h : w.Leaves w') : w.Plants w' [] where
  toExtends := h.toExtends
  sorted := .nil
  lt_of_mem h := absurd h List.not_mem_nil
  contains_of_mem h := absurd h List.not_mem_nil
  exists_above hx hcontains := absurd hcontains (find?_eq_none_iff.1 (h.find?_new hx))

theorem Builds.plants (h : w.Builds w' id form) : w.Plants w' [id] where
  toExtends := h.toExtends
  sorted := List.pairwise_singleton _ _
  lt_of_mem hid := List.mem_singleton.1 hid ▸ h.lt_id
  contains_of_mem hid := List.mem_singleton.1 hid ▸ h.contains
  exists_above hx hcontains := ⟨id, List.mem_singleton_self id, h.eq_or_above hx hcontains⟩

namespace Plants

theorem append (h : w.Plants w₁ ids) (h' : w₁.Plants w' ids') :
    w.Plants w' (ids ++ ids') where
  toExtends := h.toExtends.trans h'.toExtends
  sorted := by
    refine List.pairwise_append.2 ⟨h.sorted, h'.sorted, fun x hx y hy => ?_⟩
    exact Nat.lt_of_le_of_lt (h.consistent.le_lastId (h.contains_of_mem hx)) (h'.lt_of_mem hy)
  lt_of_mem {x} hx := by
    rcases List.mem_append.1 hx with hx | hx
    · exact h.lt_of_mem hx
    · exact Nat.lt_of_le_of_lt h.lastId_le (h'.lt_of_mem hx)
  contains_of_mem {x} hx := by
    rcases List.mem_append.1 hx with hx | hx
    · have hcontains := h.contains_of_mem hx
      rw [contains_iff_find?] at hcontains ⊢
      rw [h'.find?_eq (h.consistent.le_lastId (h.contains_of_mem hx))]
      exact hcontains
    · exact h'.contains_of_mem hx
  exists_above {x} hx hcontains := by
    by_cases hold : x ≤ w₁.lastId
    · rw [contains_iff_find?, h'.find?_eq hold, ← contains_iff_find?] at hcontains
      obtain ⟨a, ha, habove⟩ := h.exists_above hx hcontains
      refine ⟨a, List.mem_append_left _ ha, habove.imp_right fun habove => ?_⟩
      exact h'.toExtends.above h.consistent habove
    · obtain ⟨a, ha, habove⟩ := h'.exists_above (Nat.not_le.1 hold) hcontains
      exact ⟨a, List.mem_append_right _ ha, habove⟩

/-- Appending one new block to the chain of another touches only new blocks. -/
theorem append? (hw : w.Consistent) (h : w.Plants w₁ ids) {first second : BlockId}
    (hfirst : w.lastId < first) (hsecond : w.lastId < second)
    (happend : w₁.append? first second = .ok w') : w.Plants w' ids ∧ w₁.KeepsForms w' := by
  have hconsistent := h.consistent.append? happend
  obtain ⟨last, b, child, hb, hbelow, -, -, hc, hroot, -, hne, -, rfl⟩ :=
    h.consistent.append?_eq_ok happend
  have hlast : w.lastId < last := by
    refine Nat.not_le.1 fun hold => absurd hfirst (Nat.not_lt.2 ?_)
    rcases hbelow with hsame | habove
    · exact hsame ▸ hold
    · exact h.toExtends.le_lastId_of_above hw habove hold
  have hfind {x : BlockId} := find?_relink (x := x) (q := some last)
    (f := fun b => { b with next := some second }) hb hc hne
  have hparent {x : BlockId} := parent?_relink (x := x) (q := some last)
    (f := fun b => { b with next := some second }) hb hc hne rfl
  have hcontains {x : BlockId} :
      ((w₁.modify last fun b => { b with next := some second }).own last second).contains x =
        w₁.contains x := by
    rw [own, contains_modify, contains_modify]
  refine ⟨⟨⟨hconsistent, h.lastId_le, h.variableNames_eq, fun {x} hx => ?_⟩, h.sorted, h.lt_of_mem,
    fun hid => hcontains.trans (h.contains_of_mem hid), fun {x} hx hx' => ?_⟩, fun x d hd => ?_⟩
  · refine (hfind.trans ?_).trans (h.find?_eq hx)
    rw [if_neg (Nat.ne_of_lt (Nat.lt_of_le_of_lt hx hsecond)),
      if_neg (Nat.ne_of_lt (Nat.lt_of_le_of_lt hx hlast))]
  · obtain ⟨a, ha, habove⟩ := h.exists_above hx (hcontains ▸ hx')
    refine ⟨a, ha, habove.imp_right fun habove => habove.mono fun y z hyz => hparent.trans ?_⟩
    rw [if_neg, hyz]
    rintro rfl
    rw [parent?_of_find? hc, hroot] at hyz
    cases hyz
  · by_cases hx : x = second
    · obtain rfl : child = d := Option.some.inj (hc.symm.trans (hx ▸ hd))
      exact ⟨_, hfind.trans (if_pos hx), rfl⟩
    · by_cases hx' : x = last
      · obtain rfl : b = d := Option.some.inj (hb.symm.trans (hx' ▸ hd))
        exact ⟨_, hfind.trans ((if_neg hx).trans (if_pos hx')), rfl⟩
      · exact ⟨d, hfind.trans ((if_neg hx).trans ((if_neg hx').trans hd)), rfl⟩

/-- Chaining touches only new blocks, and leaves each of them a block of its form. -/
theorem linkAll (hw : w.Consistent) (h : w.Plants w₁ ids) {rest : List BlockId}
    (hrest : ∀ id ∈ rest, w.lastId < id) :
    w.Plants (linkAll rest w₁).2 ids ∧ w₁.KeepsForms (linkAll rest w₁).2 := by
  induction rest generalizing w₁ with
  | nil => exact ⟨h, .refl _⟩
  | cons first rest ih =>
    cases rest with
    | nil => exact ⟨h, .refl _⟩
    | cons second rest =>
      have hstep : w.Plants (w₁.append first second).2 ids ∧
          w₁.KeepsForms (w₁.append first second).2 := by
        rw [Workspace.append]
        split
        · next happend =>
          exact h.append? hw (hrest first List.mem_cons_self)
            (hrest second (List.mem_cons_of_mem _ List.mem_cons_self)) happend
        · exact ⟨h, .refl _⟩
      obtain ⟨hplants, hforms⟩ :=
        ih hstep.1 fun id hid => hrest id (List.mem_cons_of_mem _ hid)
      exact ⟨hplants, hstep.2.trans hforms⟩

end Plants

theorem spends_linkAll (rest : List BlockId) (w : Workspace) : w.Spends (linkAll rest w).2 0 := by
  induction rest generalizing w with
  | nil => rfl
  | cons first rest ih =>
    cases rest with
    | nil => rfl
    | cons second rest =>
      have hstep : w.Spends (w.append first second).2 0 := by
        rw [Workspace.append]
        split
        · next happend =>
          simp only [Workspace.append?, bind_eq_ok, pure_eq_ok] at happend
          obtain ⟨last, -, rfl⟩ := happend
          exact .zero w
        · exact .zero w
      exact hstep.trans (ih _)

/-! ### Lines -/

theorem readLines_cons (line : String) (lines : List String) (w : Workspace) :
    readLines o v (line :: lines) w =
      ((w.readLine o v line).1 :: (readLines o v lines (w.readLine o v line).2).1,
        (readLines o v lines (w.readLine o v line).2).2) := by
  simp only [readLines]

/-- What the result of a trimmed line says about the line and about the workspace that was left. -/
def Accounts (o : ReadingOptions) (v : Vocabulary) (w' : Workspace) (line : String) :
    LineResult → Prop
  | .ignored => o.ignores line = true
  | .unmatched => o.ignores line = false ∧ v.firstMatch line = none
  | .failed form _ => o.ignores line = false ∧ ∃ f c, v.firstMatch line = some (f, c) ∧ f.name = form
  | .built id => o.ignores line = false ∧ ∃ f c b, v.firstMatch line = some (f, c) ∧
    w'.find? id = some b ∧ b.form = f.name

/-- An account stays right as long as blocks keep their forms. -/
theorem Accounts.mono {line : String} {result : LineResult} (hforms : w₁.KeepsForms w')
    (h : w₁.Accounts o v line result) : w'.Accounts o v line result := by
  cases result with
  | built id =>
    obtain ⟨hkept, f, c, b, hmatch, hb, hform⟩ := h
    obtain ⟨b', hb', hform'⟩ := hforms hb
    exact ⟨hkept, f, c, b', hmatch, hb', hform'.trans hform⟩
  | _ => exact h

/-- What may become of a trimmed line: the result, the workspace that is left, and how many blocks
are created on the way. -/
inductive ReadsLine (o : ReadingOptions) (v : Vocabulary) (w : Workspace) (line : String) :
    LineResult → Workspace → Nat → Prop where
  | ignored (hignored : o.ignores line = true) : ReadsLine o v w line .ignored w 0
  | unmatched (hkept : o.ignores line = false) (hmatch : v.firstMatch line = none) :
    ReadsLine o v w line .unmatched w 0
  | failed {form : Form} {c : Capture} {e : Error} {w' : Workspace}
    (hkept : o.ignores line = false) (hmatch : v.firstMatch line = some (form, c))
    (hbuild : build v w line form c = (.error e, w')) :
    ReadsLine o v w line (.failed form.name e) w' (buildCreations v w line form c)
  | built {form : Form} {c : Capture} {id : BlockId} {w' : Workspace}
    (hkept : o.ignores line = false) (hmatch : v.firstMatch line = some (form, c))
    (hbuild : build v w line form c = (.ok id, w')) :
    ReadsLine o v w line (.built id) w' (buildCreations v w line form c)

theorem readLine_cases (o : ReadingOptions) (v : Vocabulary) (w : Workspace) (line : String) :
    ReadsLine o v w (String.ofList (Text.trim line.toList)) (w.readLine o v line).1
      (w.readLine o v line).2 (readLineCreations o v w line) := by
  rw [readLine, readLineCreations]
  generalize String.ofList (Text.trim line.toList) = line
  cases hignores : o.ignores line with
  | true => exact .ignored hignores
  | false =>
    cases hmatch : v.firstMatch line with
    | none => exact .unmatched hignores hmatch
    | some fc =>
      obtain ⟨form, c⟩ := fc
      simp only [Bool.false_eq_true, if_false]
      rcases hbuild : build v w line form c with ⟨e | id, w'⟩
      · exact .failed hignores hmatch hbuild
      · exact .built hignores hmatch hbuild

theorem readLine_spec (hw : w.Consistent) (line : String)
    (hroom : w.Room (readLineCreations o v w line)) :
    w.Plants (w.readLine o v line).2 (w.readLine o v line).1.block?.toList ∧
      Accounts o v (w.readLine o v line).2 (String.ofList (Text.trim line.toList))
        (w.readLine o v line).1 ∧
      w.Spends (w.readLine o v line).2 (readLineCreations o v w line) := by
  have hcases := readLine_cases o v w line
  generalize readLineCreations o v w line = n at hroom hcases ⊢
  generalize w.readLine o v line = r at hcases ⊢
  generalize String.ofList (Text.trim line.toList) = line at hcases ⊢
  obtain ⟨result, w'⟩ := r
  cases hcases with
  | ignored hignored => exact ⟨(Leaves.refl hw).plants, hignored, .zero _⟩
  | unmatched hkept hmatch => exact ⟨(Leaves.refl hw).plants, ⟨hkept, hmatch⟩, .zero _⟩
  | @failed form c e w' hkept hmatch hbuild =>
    obtain ⟨hmakes, hspends⟩ := build_spec hw line form c hroom
    rw [hbuild] at hmakes hspends
    exact ⟨Leaves.plants hmakes, ⟨hkept, form, c, hmatch, rfl⟩, hspends⟩
  | @built form c id w' hkept hmatch hbuild =>
    obtain ⟨hmakes, hspends⟩ := build_spec hw line form c hroom
    rw [hbuild] at hmakes hspends
    obtain ⟨b, hb, hform, -⟩ := Builds.root hmakes
    exact ⟨Builds.plants hmakes, ⟨hkept, form, c, b, hmatch, hb, hform⟩, hspends⟩

/-- A line is kept unless it is empty, a comment or a word that means nothing. -/
theorem ignores_eq_false {c : Char} {s : List Char} (hc : c ≠ '#') (hs : c :: s ≠ "pass".toList) :
    ({} : ReadingOptions).ignores (.ofList (c :: s)) = false := by
  have hempty : String.ofList (c :: s) ≠ "" := by
    intro h
    exact nomatch String.toList_ofList.symm.trans (congrArg String.toList h)
  have hcomment : "#".toList.isPrefixOf (String.ofList (c :: s)).toList = false := by
    change ['#'].isPrefixOf _ = false
    rw [String.toList_ofList, List.isPrefixOf_cons_cons, beq_false_of_ne hc.symm, Bool.false_and]
  have hword : ["pass"].contains (String.ofList (c :: s)) = false := by
    rw [Bool.eq_false_iff]
    intro h
    apply hs
    rw [← List.mem_singleton.1 (List.contains_iff_mem.1 h), String.toList_ofList]
  change (decide (_ = "") || (true && "#".toList.isPrefixOf _) || ["pass"].contains _) = false
  rw [decide_eq_false hempty, hcomment, hword]
  rfl

/-- Once the fields are read off a match, blocks are built for them. -/
theorem build_eq {form : Form} {c : Capture} {fields : Fields} (text : String)
    (hread : form.readFields c = .ok fields) :
    build v w text form c = construct v (attachArgument v text.length) w form fields ∧
      buildCreations v w text form c = constructCreations v (attachArgument v text.length)
        (attachArgumentCreations v text.length) w form fields := by
  rw [build, buildCreations, hread]
  exact ⟨rfl, rfl⟩

/-- What becomes of a line that a form reads fields off. -/
theorem readLine_of_match {line text : String} {form : Form} {c : Capture} {fields : Fields}
    (htrim : String.ofList (Text.trim line.toList) = text) (hkept : o.ignores text = false)
    (hmatch : v.firstMatch text = some (form, c)) (hread : form.readFields c = .ok fields) :
    w.readLine o v line =
        (match construct v (attachArgument v text.length) w form fields with
        | (.ok id, w') => (.built id, w')
        | (.error e, w') => (.failed form.name e, w')) ∧
      readLineCreations o v w line =
        constructCreations v (attachArgument v text.length) (attachArgumentCreations v text.length)
          w form fields := by
  obtain ⟨hbuild, hcount⟩ := build_eq (v := v) (w := w) text hread
  rw [readLine, readLineCreations, htrim, hkept, hmatch, ← hbuild, ← hcount]
  exact ⟨rfl, rfl⟩

/-- Reading lines plants the blocks that it reports, and accounts for every line. -/
theorem readLines_spec (hw : w.Consistent) (lines : List String)
    (hroom : w.Room (readLinesCreations o v lines w)) :
    w.Plants (readLines o v lines w).2 ((readLines o v lines w).1.filterMap LineResult.block?) ∧
      List.Forall₂ (fun line => Accounts o v (readLines o v lines w).2
        (String.ofList (Text.trim line.toList))) lines (readLines o v lines w).1 ∧
      w.Spends (readLines o v lines w).2 (readLinesCreations o v lines w) := by
  induction lines generalizing w with
  | nil => exact ⟨(Leaves.refl hw).plants, .nil, .zero w⟩
  | cons line lines ih =>
    rw [readLinesCreations] at hroom ⊢
    obtain ⟨hplants, haccounts, hspends⟩ := readLine_spec hw line hroom.left
    obtain ⟨hplants', haccounts', hspends'⟩ := ih hplants.consistent (hroom.of_spends hspends)
    rw [readLines]
    refine ⟨?_, .cons ?_ haccounts', hspends.trans hspends'⟩
    · have happend := hplants.append hplants'
      cases hblock : (w.readLine o v line).1.block? with
      | none =>
        rw [hblock] at happend
        rwa [List.filterMap_cons_none hblock]
      | some id =>
        rw [hblock] at happend
        rwa [List.filterMap_cons_some hblock]
    · exact haccounts.mono (hplants'.toExtends.keepsForms hplants.consistent)

/-- A document of one line, which may be ended by a line feed: behind that there is an empty one. -/
theorem readDocument_of_line {line e : List Char} {result : LineResult} (hline : Text.IsLine line)
    (he : e = [] ∨ e = ['\n']) (h : w.readLine {} v (.ofList line) = (result, w')) :
    w.readDocument {} v (.ofList (line ++ e)) = (.ofResults [result] 0, w') := by
  have hlinked : linkAll (Outcome.ofResults [result] 0).blocks w' = (0, w') := by
    cases result <;> rfl
  rcases he with rfl | rfl
  · rw [readDocument, String.toList_ofList, List.append_nil, Text.documentLines_eq_singleton hline]
    simp only [List.map_cons, List.map_nil, readLines, h, hlinked]
  · have hlines : Text.documentLines (line ++ ['\n']) = [line, []] :=
      Text.documentLines_line hline []
    have hempty : w'.readLine {} v (.ofList []) = (.ignored, w') := rfl
    have hignored : Outcome.ofResults [result, .ignored] 0 = .ofResults [result] 0 := by
      cases result <;> rfl
    rw [readDocument, String.toList_ofList, hlines]
    simp only [List.map_cons, List.map_nil, readLines, h, hempty, hignored, hlinked]

/-- Reading a document plants the blocks that it reports, chained or not. -/
theorem readDocument_spec (hw : w.Consistent) (text : String)
    (hroom : w.Room (readDocumentCreations o v w text)) :
    w.Plants (w.readDocument o v text).2 (w.readDocument o v text).1.blocks ∧
      (∃ results unlinked, (w.readDocument o v text).1 = .ofResults results unlinked ∧
        List.Forall₂ (fun line => Accounts o v (w.readDocument o v text).2
          (String.ofList (Text.trim line.toList)))
          ((Text.documentLines text.toList).map String.ofList) results) ∧
      w.Spends (w.readDocument o v text).2 (readDocumentCreations o v w text) := by
  rw [readDocumentCreations] at hroom ⊢
  obtain ⟨hplants, haccounts, hspends⟩ := readLines_spec hw _ hroom
  rw [readDocument]
  generalize readLinesCreations o v ((Text.documentLines text.toList).map String.ofList) w = n at *
  generalize (Text.documentLines text.toList).map String.ofList = lines at *
  rcases hread : readLines o v lines w with ⟨results, w₁⟩
  rw [hread] at hplants haccounts hspends
  simp only [Outcome.blocks_ofResults]
  obtain ⟨hlinked, hforms⟩ := hplants.linkAll hw fun id hid => hplants.lt_of_mem hid
  refine ⟨?_, ⟨results, _, rfl, ?_⟩, hspends.trans (spends_linkAll _ _)⟩
  · exact hlinked
  · exact haccounts.imp fun line result h => h.mono hforms

/-- What becomes of a text that the named form reads fields off. -/
theorem readAs_of_match {text name : String} {form : Form} {c : Capture} {fields : Fields}
    (hform : v.get name = .ok form) (hmatch : form.matchIn text = some c)
    (hread : form.readFields c = .ok fields) :
    w.readAs v text name =
        (match construct v (attachArgument v text.length) w form fields with
        | (.ok id, w') => (.ok (some id), w')
        | (.error e, w') => (.error e, w')) ∧
      readAsCreations v w text name =
        constructCreations v (attachArgument v text.length) (attachArgumentCreations v text.length)
          w form fields := by
  obtain ⟨hbuild, hcount⟩ := build_eq (v := v) (w := w) text hread
  rw [readAs, readAsCreations, hform, ← hbuild, ← hcount]
  dsimp only
  rw [hmatch]
  exact ⟨rfl, rfl⟩

theorem readAs_spec (hw : w.Consistent) (text form : String)
    (hroom : w.Room (readAsCreations v w text form)) :
    w.Plants (w.readAs v text form).2
      (match (w.readAs v text form).1 with
      | .ok (some id) => [id]
      | _ => []) ∧
      w.Spends (w.readAs v text form).2 (readAsCreations v w text form) := by
  rw [readAs]
  rw [readAsCreations] at hroom ⊢
  cases hform : v.get form with
  | error e => exact ⟨(Leaves.refl hw).plants, .zero w⟩
  | ok f =>
    rw [hform] at hroom
    simp only at hroom ⊢
    cases hmatch : f.matchIn text with
    | none => exact ⟨(Leaves.refl hw).plants, .zero w⟩
    | some c =>
      rw [hmatch] at hroom
      simp only at hroom ⊢
      obtain ⟨hmakes, hspends⟩ := build_spec hw text f c hroom
      rcases hbuild : build v w text f c with ⟨e | id, w₁⟩
      · rw [hbuild] at hmakes hspends
        exact ⟨Leaves.plants hmakes, hspends⟩
      · rw [hbuild] at hmakes hspends
        exact ⟨Builds.plants hmakes, hspends⟩

end Workspace

end ScriptBlocks
