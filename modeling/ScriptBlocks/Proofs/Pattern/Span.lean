import ScriptBlocks.Form

/-!
# What patterns match

Apart from which way to match comes first, a pattern says which pieces of a text it can match, and
what its groups are then. A match that is found is such a piece, and where there is such a piece
some match is found. With an anchor at both ends only the whole text can be matched, so the two
together decide which texts belong to a form.

## Main definitions

* `Pattern.Spans` — the pieces of text that a pattern can match, with the texts of its groups

## Main statements

* `Pattern.exists_spans_of_run` — a match that is found is such a piece
* `Pattern.isSome_run_of_spans` — where there is such a piece a match is found
* `Form.spans_of_matchWhole`, `Form.spans_of_matchIn` — what follows from a match of a form
* `Form.matchWhole_of_spans`, `Form.isSome_matchIn_of_spans` — when a form matches
-/

namespace ScriptBlocks

namespace Pattern

/-- The pattern can match `piece` where `before` stands in front of it, the nearest character first,
and `rest` behind it. The groups are given by their numbers and texts in the order of their
starts. -/
def Spans : Pattern → (before piece rest : List Char) → List (Nat × List Char) → Prop
  | nothing, _, piece, _, groups => piece = [] ∧ groups = []
  | one test, _, piece, _, groups => ∃ c, test c = true ∧ piece = [c] ∧ groups = []
  | seq p q, before, piece, rest, groups => ∃ u v gs hs, piece = u ++ v ∧ groups = gs ++ hs ∧
      p.Spans before u (v ++ rest) gs ∧ q.Spans (u.reverse ++ before) v rest hs
  | alt p q, before, piece, rest, groups =>
      p.Spans before piece rest groups ∨ q.Spans before piece rest groups
  | many test, _, piece, _, groups => (∀ c ∈ piece, test c = true) ∧ groups = []
  | few test, _, piece, _, groups => (∀ c ∈ piece, test c = true) ∧ groups = []
  | group i p, before, piece, rest, groups =>
      ∃ gs, groups = (i, piece) :: gs ∧ p.Spans before piece rest gs
  | atStart, before, piece, _, groups => before = [] ∧ piece = [] ∧ groups = []
  | atEnd, _, piece, rest, groups => rest = [] ∧ piece = [] ∧ groups = []
  | wordBoundary, before, piece, rest, groups =>
      (Place.mk before rest).atWordBoundary = true ∧ piece = [] ∧ groups = []

/-- The number and the text of a group in `s`. -/
def Group.read (s : List Char) (g : Group) : Nat × List Char :=
  (g.index, (s.drop g.start).take (g.stop - g.start))

variable {α : Type} {test : Char → Bool} {before tail piece rest : List Char}

/-! ### Matches are pieces -/

theorem exists_of_runMany {k : Place → Option α} {e : α}
    (h : runMany test k before tail = some e) :
    ∃ piece rest, tail = piece ++ rest ∧ (∀ c ∈ piece, test c = true) ∧
      k ⟨piece.reverse ++ before, rest⟩ = some e := by
  induction tail generalizing before with
  | nil => exact ⟨[], [], rfl, fun _ hc => absurd hc List.not_mem_nil, h⟩
  | cons c tail ih =>
    have hstop (hk : k ⟨before, c :: tail⟩ = some e) : ∃ piece rest, c :: tail = piece ++ rest ∧
        (∀ c ∈ piece, test c = true) ∧ k ⟨piece.reverse ++ before, rest⟩ = some e :=
      ⟨[], c :: tail, rfl, fun _ hc => absurd hc List.not_mem_nil, hk⟩
    rw [runMany] at h
    split at h
    · next hc =>
      rcases hlong : runMany test k (c :: before) tail with _ | e'
      · rw [hlong] at h
        exact hstop h
      · rw [hlong] at h
        obtain ⟨piece, rest, rfl, hpiece, hk⟩ := ih (hlong.trans h)
        refine ⟨c :: piece, rest, rfl, List.forall_mem_cons.2 ⟨hc, hpiece⟩, ?_⟩
        rw [List.reverse_cons, List.append_assoc]
        exact hk
    · exact hstop h

theorem exists_of_runFew {k : Place → Option α} {e : α}
    (h : runFew test k before tail = some e) :
    ∃ piece rest, tail = piece ++ rest ∧ (∀ c ∈ piece, test c = true) ∧
      k ⟨piece.reverse ++ before, rest⟩ = some e := by
  induction tail generalizing before with
  | nil => exact ⟨[], [], rfl, fun _ hc => absurd hc List.not_mem_nil, h⟩
  | cons c tail ih =>
    rw [runFew] at h
    rcases hstop : k ⟨before, c :: tail⟩ with _ | e'
    · rw [hstop, Option.orElse_none] at h
      split at h
      · next hc =>
        obtain ⟨piece, rest, rfl, hpiece, hk⟩ := ih h
        refine ⟨c :: piece, rest, rfl, List.forall_mem_cons.2 ⟨hc, hpiece⟩, ?_⟩
        rw [List.reverse_cons, List.append_assoc]
        exact hk
      · cases h
    · rw [hstop] at h
      exact ⟨[], c :: tail, rfl, fun _ hc => absurd hc List.not_mem_nil, hstop.trans h⟩

/-- A match that starts between `before` and `tail` is a piece at the front of `tail` that the
pattern can match, and what follows the pattern goes on behind it. -/
theorem exists_spans_of_run (p : Pattern) {s : List Char} {k : Place → Option (Ending α)}
    {e : Ending α} (hs : s = before.reverse ++ tail) (h : p.run k ⟨before, tail⟩ = some e) :
    ∃ piece rest gs e', tail = piece ++ rest ∧ p.Spans before piece rest (gs.map (Group.read s)) ∧
      k ⟨piece.reverse ++ before, rest⟩ = some e' ∧ e = ⟨e'.value, gs ++ e'.groups⟩ := by
  induction p generalizing α before tail with
  | nothing => exact ⟨[], tail, [], e, rfl, ⟨rfl, rfl⟩, h, rfl⟩
  | one test =>
    cases tail with
    | nil => cases h
    | cons c tail =>
      simp only [run] at h
      split at h
      · next hc => exact ⟨[c], tail, [], e, rfl, ⟨c, hc, rfl, rfl⟩, h, rfl⟩
      · cases h
  | seq p q ihp ihq =>
    obtain ⟨u, rest, gs, e₁, rfl, hu, hrun, rfl⟩ := ihp hs h
    have hs' : s = (u.reverse ++ before).reverse ++ rest := by
      rw [hs, List.reverse_append, List.reverse_reverse, List.append_assoc]
    obtain ⟨v, rest, gs', e', rfl, hv, hk, rfl⟩ := ihq hs' hrun
    refine ⟨u ++ v, rest, gs ++ gs', e', (List.append_assoc ..).symm, ?_, ?_, ?_⟩
    · exact ⟨u, v, gs.map _, gs'.map _, rfl, List.map_append, hu, hv⟩
    · rw [List.reverse_append, List.append_assoc]
      exact hk
    · rw [List.append_assoc]
  | alt p q ihp ihq =>
    rw [run] at h
    rcases hp : p.run k ⟨before, tail⟩ with _ | e₁
    · rw [hp, Option.orElse_none] at h
      obtain ⟨piece, rest, gs, e', htail, hspans, hk⟩ := ihq hs h
      exact ⟨piece, rest, gs, e', htail, .inr hspans, hk⟩
    · rw [hp] at h
      obtain ⟨piece, rest, gs, e', htail, hspans, hk⟩ := ihp hs (hp.trans h)
      exact ⟨piece, rest, gs, e', htail, .inl hspans, hk⟩
  | many test =>
    obtain ⟨piece, rest, htail, hpiece, hk⟩ := exists_of_runMany h
    exact ⟨piece, rest, [], e, htail, ⟨hpiece, rfl⟩, hk, rfl⟩
  | few test =>
    obtain ⟨piece, rest, htail, hpiece, hk⟩ := exists_of_runFew h
    exact ⟨piece, rest, [], e, htail, ⟨hpiece, rfl⟩, hk, rfl⟩
  | group i p ih =>
    rw [run, Option.map_eq_some_iff] at h
    obtain ⟨e₁, hrun, rfl⟩ := h
    obtain ⟨piece, rest, gs, e₂, rfl, hspans, hstop, rfl⟩ := ih hs hrun
    obtain ⟨e', hk, rfl⟩ := Option.map_eq_some_iff.1 hstop
    refine ⟨piece, rest, ⟨i, before.length, before.length + piece.length⟩ :: gs, e', rfl,
      ⟨gs.map _, ?_, hspans⟩, hk, ?_⟩
    · -- The group lies in `s` just where the piece does.
      rw [List.map_cons, Group.read, hs, Nat.add_sub_cancel_left,
        List.drop_left' (List.length_reverse ..), List.take_left]
    · rw [Ending.startingAt, Ending.stoppingAt, Place.offset, Place.offset, List.length_append,
        List.length_reverse, Nat.add_comm piece.length]
      rfl
  | atStart =>
    rw [run] at h
    split at h
    · next hbefore => exact ⟨[], tail, [], e, rfl, ⟨List.isEmpty_iff.1 hbefore, rfl, rfl⟩, h, rfl⟩
    · cases h
  | atEnd =>
    rw [run] at h
    split at h
    · next hrest => exact ⟨[], tail, [], e, rfl, ⟨List.isEmpty_iff.1 hrest, rfl, rfl⟩, h, rfl⟩
    · cases h
  | wordBoundary =>
    rw [run] at h
    split at h
    · next hword => exact ⟨[], tail, [], e, rfl, ⟨hword, rfl, rfl⟩, h, rfl⟩
    · cases h

/-! ### Pieces are found -/

theorem isSome_runMany {k : Place → Option α} (hpiece : ∀ c ∈ piece, test c = true)
    (hk : (k ⟨piece.reverse ++ before, rest⟩).isSome = true) :
    (runMany test k before (piece ++ rest)).isSome = true := by
  induction piece generalizing before with
  | nil =>
    cases rest with
    | nil => exact hk
    | cons c rest =>
      rw [List.nil_append, runMany]
      split
      · cases runMany test k (c :: before) rest with
        | none => exact hk
        | some e => rfl
      · exact hk
  | cons c piece ih =>
    obtain ⟨hc, hpiece⟩ := List.forall_mem_cons.1 hpiece
    rw [List.reverse_cons, List.append_assoc] at hk
    have hlong : (runMany test k (c :: before) (piece ++ rest)).isSome = true := ih hpiece hk
    rw [List.cons_append, runMany, if_pos hc]
    cases hrun : runMany test k (c :: before) (piece ++ rest) with
    | none => rw [hrun] at hlong; cases hlong
    | some e => rfl

theorem isSome_runFew {k : Place → Option α} (hpiece : ∀ c ∈ piece, test c = true)
    (hk : (k ⟨piece.reverse ++ before, rest⟩).isSome = true) :
    (runFew test k before (piece ++ rest)).isSome = true := by
  induction piece generalizing before with
  | nil =>
    cases rest with
    | nil => exact hk
    | cons c rest =>
      rw [List.nil_append, runFew]
      cases hstop : k ⟨before, c :: rest⟩ with
      | none => rw [List.reverse_nil, List.nil_append, hstop] at hk; cases hk
      | some e => rfl
  | cons c piece ih =>
    obtain ⟨hc, hpiece⟩ := List.forall_mem_cons.1 hpiece
    rw [List.reverse_cons, List.append_assoc] at hk
    rw [List.cons_append, runFew]
    cases k ⟨before, c :: (piece ++ rest)⟩ with
    | none =>
      rw [Option.orElse_none, if_pos hc]
      exact ih hpiece hk
    | some e => rfl

/-- Where the pattern can match a piece and what follows it can go on behind that piece, a match is
found, though it need not be that one. -/
theorem isSome_run_of_spans (p : Pattern) {k : Place → Option (Ending α)}
    {groups : List (Nat × List Char)} (h : p.Spans before piece rest groups)
    (hk : (k ⟨piece.reverse ++ before, rest⟩).isSome = true) :
    (p.run k ⟨before, piece ++ rest⟩).isSome = true := by
  induction p generalizing α before piece rest groups with
  | nothing =>
    obtain ⟨rfl, -⟩ := h
    exact hk
  | one test =>
    obtain ⟨c, hc, rfl, -⟩ := h
    simp only [run, List.cons_append, List.nil_append, if_pos hc]
    exact hk
  | seq p q ihp ihq =>
    obtain ⟨u, v, gs, hs, rfl, -, hu, hv⟩ := h
    rw [run, List.append_assoc]
    rw [List.reverse_append, List.append_assoc] at hk
    exact ihp hu (ihq hv hk)
  | alt p q ihp ihq =>
    rw [run]
    rcases h with h | h
    · have hp := ihp h hk
      cases hrun : p.run k ⟨before, piece ++ rest⟩ with
      | none => rw [hrun] at hp; cases hp
      | some e => rfl
    · cases p.run k ⟨before, piece ++ rest⟩ with
      | none => exact ihq h hk
      | some e => rfl
  | many test => exact isSome_runMany h.1 hk
  | few test => exact isSome_runFew h.1 hk
  | group i p ih =>
    obtain ⟨gs, -, h⟩ := h
    rw [run, Option.isSome_map]
    exact ih h (by rw [Option.isSome_map]; exact hk)
  | atStart =>
    obtain ⟨rfl, rfl, -⟩ := h
    exact hk
  | atEnd =>
    obtain ⟨rfl, rfl, -⟩ := h
    exact hk
  | wordBoundary =>
    obtain ⟨hword, rfl, -⟩ := h
    simp only [run, List.nil_append, if_pos hword]
    exact hk

/-! ### Composed patterns -/

section Composed

variable {groups : List (Nat × List Char)}

theorem spans_chars {cs : List Char} :
    (chars cs).Spans before piece rest groups ↔ piece = cs ∧ groups = [] := by
  induction cs generalizing before piece rest groups with
  | nil => rfl
  | cons c cs ih =>
    cases cs with
    | nil => simp [chars, Spans]
    | cons d cs =>
      constructor
      · rintro ⟨u, v, gs, hs, rfl, rfl, ⟨c', hc', rfl, rfl⟩, hv⟩
        obtain ⟨rfl, rfl⟩ := ih.1 hv
        rw [of_decide_eq_true hc']
        exact ⟨rfl, rfl⟩
      · rintro ⟨rfl, rfl⟩
        exact ⟨[c], d :: cs, [], [], rfl, rfl, ⟨c, decide_eq_true rfl, rfl, rfl⟩, ih.2 ⟨rfl, rfl⟩⟩

/-- A literal matches its text. -/
theorem spans_lit {s : String} :
    (lit s).Spans before piece rest groups ↔ piece = s.toList ∧ groups = [] :=
  spans_chars

theorem spans_all_nil : (all []).Spans before piece rest groups ↔ piece = [] ∧ groups = [] :=
  Iff.rfl

theorem spans_all_cons {p : Pattern} {ps : List Pattern} :
    (all (p :: ps)).Spans before piece rest groups ↔ ∃ u v gs hs, piece = u ++ v ∧
      groups = gs ++ hs ∧ p.Spans before u (v ++ rest) gs ∧
      (all ps).Spans (u.reverse ++ before) v rest hs := by
  cases ps with
  | cons q qs => exact Iff.rfl
  | nil =>
    constructor
    · intro h
      refine ⟨piece, [], groups, [], ?_, ?_, h, rfl, rfl⟩
      · rw [List.append_nil]
      · rw [List.append_nil]
    · rintro ⟨u, v, gs, hs, rfl, rfl, h, rfl, rfl⟩
      rw [List.append_nil, List.append_nil]
      exact h

theorem spans_many : (many test).Spans before piece rest groups ↔
    (∀ c ∈ piece, test c = true) ∧ groups = [] :=
  Iff.rfl

theorem spans_atLeastOne : (atLeastOne test).Spans before piece rest groups ↔
    piece ≠ [] ∧ (∀ c ∈ piece, test c = true) ∧ groups = [] := by
  constructor
  · rintro ⟨u, v, gs, hs, rfl, rfl, ⟨c, hc, rfl, rfl⟩, hv, rfl⟩
    exact ⟨List.cons_ne_nil c v, List.forall_mem_cons.2 ⟨hc, hv⟩, rfl⟩
  · rintro ⟨hne, hpiece, rfl⟩
    cases piece with
    | nil => exact absurd rfl hne
    | cons c v =>
      obtain ⟨hc, hv⟩ := List.forall_mem_cons.1 hpiece
      exact ⟨[c], v, [], [], rfl, rfl, ⟨c, hc, rfl, rfl⟩, hv, rfl⟩

theorem spans_optional {p : Pattern} : (optional p).Spans before piece rest groups ↔
    p.Spans before piece rest groups ∨ piece = [] ∧ groups = [] :=
  Iff.rfl

/-! What comes first in a sequence. -/

variable {ps : List Pattern}

theorem spans_lit_cons {s : String} : (all (lit s :: ps)).Spans before piece rest groups ↔
    ∃ v, piece = s.toList ++ v ∧ (all ps).Spans (s.toList.reverse ++ before) v rest groups := by
  rw [spans_all_cons]
  constructor
  · rintro ⟨u, v, gs, hs, rfl, rfl, hu, hv⟩
    obtain ⟨rfl, rfl⟩ := spans_lit.1 hu
    exact ⟨v, rfl, hv⟩
  · rintro ⟨v, rfl, hv⟩
    exact ⟨_, v, [], groups, rfl, rfl, spans_lit.2 ⟨rfl, rfl⟩, hv⟩

theorem spans_group_cons {i : Nat} {p : Pattern} :
    (all (group i p :: ps)).Spans before piece rest groups ↔ ∃ u v gs hs, piece = u ++ v ∧
      groups = (i, u) :: (gs ++ hs) ∧ p.Spans before u (v ++ rest) gs ∧
      (all ps).Spans (u.reverse ++ before) v rest hs := by
  rw [spans_all_cons]
  constructor
  · rintro ⟨u, v, _, hs, rfl, rfl, ⟨gs, rfl, hu⟩, hv⟩
    exact ⟨u, v, gs, hs, rfl, rfl, hu, hv⟩
  · rintro ⟨u, v, gs, hs, rfl, rfl, hu, hv⟩
    exact ⟨u, v, (i, u) :: gs, hs, rfl, rfl, ⟨gs, rfl, hu⟩, hv⟩

theorem spans_many_cons : (all (many test :: ps)).Spans before piece rest groups ↔
    ∃ u v, piece = u ++ v ∧ (∀ c ∈ u, test c = true) ∧
      (all ps).Spans (u.reverse ++ before) v rest groups := by
  rw [spans_all_cons]
  constructor
  · rintro ⟨u, v, _, hs, rfl, rfl, ⟨hu, rfl⟩, hv⟩
    exact ⟨u, v, rfl, hu, hv⟩
  · rintro ⟨u, v, rfl, hu, hv⟩
    exact ⟨u, v, [], groups, rfl, rfl, ⟨hu, rfl⟩, hv⟩

theorem spans_atLeastOne_cons : (all (atLeastOne test :: ps)).Spans before piece rest groups ↔
    ∃ u v, piece = u ++ v ∧ u ≠ [] ∧ (∀ c ∈ u, test c = true) ∧
      (all ps).Spans (u.reverse ++ before) v rest groups := by
  rw [spans_all_cons]
  constructor
  · rintro ⟨u, v, _, hs, rfl, rfl, hrun, hv⟩
    obtain ⟨hne, hu, rfl⟩ := spans_atLeastOne.1 hrun
    exact ⟨u, v, rfl, hne, hu, hv⟩
  · rintro ⟨u, v, rfl, hne, hu, hv⟩
    exact ⟨u, v, [], groups, rfl, rfl, spans_atLeastOne.2 ⟨hne, hu, rfl⟩, hv⟩

theorem spans_atStart_cons : (all (atStart :: ps)).Spans before piece rest groups ↔
    before = [] ∧ (all ps).Spans [] piece rest groups := by
  rw [spans_all_cons]
  constructor
  · rintro ⟨u, v, gs, hs, rfl, rfl, ⟨rfl, rfl, rfl⟩, hv⟩
    exact ⟨rfl, hv⟩
  · rintro ⟨rfl, hv⟩
    exact ⟨[], piece, [], groups, rfl, rfl, ⟨rfl, rfl, rfl⟩, hv⟩

theorem spans_atEnd : (all [atEnd]).Spans before piece rest groups ↔
    rest = [] ∧ piece = [] ∧ groups = [] :=
  Iff.rfl

end Composed

/-! ### Searching -/

theorem spans_of_matchAt {p : Pattern} {s : List Char} {start : Nat} {e : Ending Nat}
    (hstart : start ≤ s.length) (h : p.matchAt s start = some e) :
    ∃ before piece rest gs, s = before ++ (piece ++ rest) ∧
      p.Spans before.reverse piece rest (gs.map (Group.read s)) ∧
      start = before.length ∧ e = ⟨before.length + piece.length, gs⟩ := by
  have hs : s = (s.take start).reverse.reverse ++ s.drop start := by
    rw [List.reverse_reverse, List.take_append_drop]
  obtain ⟨piece, rest, gs, e', hdrop, hspans, hfinish, rfl⟩ := p.exists_spans_of_run hs h
  have hlength : (s.take start).length = start := List.length_take_of_le hstart
  refine ⟨s.take start, piece, rest, gs, ?_, hspans, hlength.symm, ?_⟩
  · rw [← hdrop, List.take_append_drop]
  · rw [finish, Option.some.injEq] at hfinish
    rw [← hfinish, Place.offset, List.length_append, List.length_reverse, List.length_reverse,
      Nat.add_comm piece.length, List.append_nil]

theorem isSome_matchAt_of_spans {p : Pattern} {groups : List (Nat × List Char)}
    (h : p.Spans before.reverse piece rest groups) :
    (p.matchAt (before ++ (piece ++ rest)) before.length).isSome = true := by
  rw [matchAt, Place.ofOffset, List.take_left, List.drop_left]
  exact p.isSome_run_of_spans h rfl

end Pattern

/-! ### Captures -/

namespace Capture

/-- The capture of a piece between two others, with the texts of the groups. -/
def ofPieces (before piece rest : List Char) (groups : List (Nat × List Char)) : Capture where
  before := .ofList before
  text := .ofList piece
  after := .ofList rest
  groups := groups.reverse.map fun g => (g.1, .ofList g.2)

theorem ofEnding_eq (before piece rest : List Char) (gs : List Pattern.Group) :
    ofEnding (before ++ (piece ++ rest)) before.length ⟨before.length + piece.length, gs⟩ =
      ofPieces before piece rest (gs.map (Pattern.Group.read (before ++ (piece ++ rest)))) := by
  have hdrop : (before ++ (piece ++ rest)).drop (before.length + piece.length) = rest := by
    rw [← List.append_assoc, ← List.length_append, List.drop_left]
  rw [ofEnding, ofPieces, slice, slice, hdrop, Nat.sub_zero, List.drop_zero, List.take_left,
    List.drop_left, Nat.add_sub_cancel_left, List.take_left, ← List.map_reverse, List.map_map]
  rfl

theorem isWhole_ofPieces {before piece rest : List Char} {groups : List (Nat × List Char)} :
    (ofPieces before piece rest groups).isWhole = true ↔ before = [] ∧ rest = [] := by
  simp [isWhole, ofPieces]

end Capture

/-! ### Forms -/

namespace Form

variable {f : Form} {s : List Char} {c : Capture}

/-- A match of a form in a text is a piece that its pattern can match. -/
theorem spans_of_matchIn (h : f.matchIn (.ofList s) = some c) :
    ∃ before piece rest groups, s = before ++ (piece ++ rest) ∧
      f.pattern.Spans before.reverse piece rest groups ∧
      c = .ofPieces before piece rest groups := by
  rw [matchIn, Pattern.search_eq, String.toList_ofList, Option.map_eq_some_iff] at h
  obtain ⟨⟨start, e⟩, hleftmost, rfl⟩ := h
  obtain ⟨i, hi, hmatch⟩ := List.exists_of_findSome?_eq_some hleftmost
  obtain ⟨e', he', hpair⟩ := Option.map_eq_some_iff.1 hmatch
  obtain ⟨rfl, rfl⟩ := Prod.mk.inj hpair
  have hle : i ≤ s.length := Nat.le_of_lt_succ (List.mem_range.1 hi)
  obtain ⟨before, piece, rest, gs, rfl, hspans, rfl, rfl⟩ := Pattern.spans_of_matchAt hle he'
  exact ⟨before, piece, rest, _, rfl, hspans, Capture.ofEnding_eq ..⟩

theorem matchIn_eq_none (h : ∀ before piece rest groups, s = before ++ (piece ++ rest) →
    ¬ f.pattern.Spans before.reverse piece rest groups) : f.matchIn (.ofList s) = none := by
  cases hmatch : f.matchIn (.ofList s) with
  | none => rfl
  | some c =>
    obtain ⟨before, piece, rest, groups, hs, hspans, -⟩ := spans_of_matchIn hmatch
    exact absurd hspans (h before piece rest groups hs)

/-- Where the pattern of a form can match a piece of a text, the form matches in the text. -/
theorem isSome_matchIn_of_spans {before piece rest : List Char}
    {groups : List (Nat × List Char)} (h : f.pattern.Spans before.reverse piece rest groups) :
    (f.matchIn (.ofList (before ++ (piece ++ rest)))).isSome = true := by
  rw [matchIn, Pattern.search_eq, String.toList_ofList, Option.isSome_map, Pattern.leftmost,
    List.findSome?_isSome_iff]
  refine ⟨before.length, List.mem_range.2 ?_, ?_⟩
  · rw [List.length_append]
    exact Nat.lt_succ_of_le (Nat.le_add_right ..)
  · rw [Option.isSome_map]
    exact Pattern.isSome_matchAt_of_spans h

/-- A form that matches a whole text has a pattern that can match the whole text. -/
theorem spans_of_matchWhole (h : f.matchWhole (.ofList s) = some c) :
    ∃ groups, f.pattern.Spans [] s [] groups ∧ c = .ofPieces [] s [] groups := by
  rw [matchWhole_eq, Option.filter_eq_some_iff] at h
  obtain ⟨hmatch, hwhole⟩ := h
  obtain ⟨before, piece, rest, groups, rfl, hspans, rfl⟩ := spans_of_matchIn hmatch
  obtain ⟨rfl, rfl⟩ := Capture.isWhole_ofPieces.1 hwhole
  rw [List.nil_append, List.append_nil]
  exact ⟨groups, hspans, rfl⟩

theorem matchWhole_eq_none (h : ∀ groups, ¬ f.pattern.Spans [] s [] groups) :
    f.matchWhole (.ofList s) = none := by
  cases hmatch : f.matchWhole (.ofList s) with
  | none => rfl
  | some c =>
    obtain ⟨groups, hspans, -⟩ := spans_of_matchWhole hmatch
    exact absurd hspans (h groups)

/-- Where the pattern of a form can match a piece at the front of a text, the form matches one
there. -/
theorem exists_matchIn_of_spans {piece rest : List Char} {groups : List (Nat × List Char)}
    (h : f.pattern.Spans [] piece rest groups) (hs : s = piece ++ rest) :
    ∃ piece' rest' groups', s = piece' ++ rest' ∧ f.pattern.Spans [] piece' rest' groups' ∧
      f.matchIn (.ofList s) = some (.ofPieces [] piece' rest' groups') := by
  have hsome : (f.pattern.matchAt ([] ++ (piece ++ rest)) ([] : List Char).length).isSome = true :=
    Pattern.isSome_matchAt_of_spans h
  rw [List.nil_append, ← hs, List.length_nil] at hsome
  obtain ⟨e, he⟩ := Option.isSome_iff_exists.1 hsome
  obtain ⟨before, piece', rest', gs, hpieces, hspans, hbefore, rfl⟩ :=
    Pattern.spans_of_matchAt (Nat.zero_le _) he
  obtain rfl : before = [] := List.length_eq_zero_iff.1 hbefore.symm
  have hcapture := Capture.ofEnding_eq [] piece' rest' gs
  rw [← hpieces, List.length_nil] at hcapture
  rw [List.length_nil] at he
  refine ⟨piece', rest', _, hpieces, hspans, ?_⟩
  rw [matchIn, Pattern.search_eq, String.toList_ofList, Pattern.leftmost, List.range_succ_eq_map,
    List.findSome?_cons, he]
  exact congrArg some hcapture

/-- A form matches a whole text if its pattern can match it all and can match no shorter piece at
its front. -/
theorem matchWhole_of_spans {groups : List (Nat × List Char)} (h : f.pattern.Spans [] s [] groups)
    (honly : ∀ piece rest gs, s = piece ++ rest → f.pattern.Spans [] piece rest gs → rest = []) :
    ∃ gs, f.pattern.Spans [] s [] gs ∧
      f.matchWhole (.ofList s) = some (.ofPieces [] s [] gs) := by
  obtain ⟨piece, rest, gs, hs, hspans, hmatch⟩ :=
    exists_matchIn_of_spans h (List.append_nil s).symm
  obtain rfl := honly piece rest gs hs hspans
  obtain rfl : s = piece := hs.trans (List.append_nil piece)
  refine ⟨gs, hspans, ?_⟩
  rw [matchWhole_eq, hmatch]
  exact Option.filter_some_pos (Capture.isWhole_ofPieces.2 ⟨rfl, rfl⟩)

end Form

end ScriptBlocks
