import ScriptBlocks.Proofs.Dialect.Landmark
import ScriptBlocks.Proofs.Dialect.Recognition
import ScriptBlocks.Proofs.Expression.Regroup

/-!
# The headers of a conditional

The header of a further arm is matched by no form of its own, but what it says is offered to all
forms: a comparison in it is read as a comparison, a call as that call, and the name `if` as the
start of another conditional. Only a constant or any other name keeps a header from being read.

## Main definitions

* `Dialect.header` — the line that an arm starts with
* `Dialect.IsQuiet` — conditions whose header no form takes

## Main statements

* `Dialect.firstMatch_header_eq_none_iff` — which headers no form takes
-/

namespace ScriptBlocks.Dialect

open Expression Pattern

variable {s before piece rest : List Char} {groups : List (Nat × List Char)}

/-- The line that an arm starts with. -/
def header (word condition : String) : List Char :=
  word.toList ++ (' ' :: (condition.toList ++ [':']))

/-- The text of a condition, or the default where there is none. -/
def conditionCode (default : String) (condition : Option Formula) : String :=
  (condition.map Formula.code).getD default

/-- The line that a further arm starts with. -/
def elifHeader (condition : Option Formula) : List Char :=
  header "elif" (conditionCode "False" condition)

/-- A condition whose header no form takes: none at all, a constant, or a name other than `if`. -/
def IsQuiet : Option Formula → Prop
  | none | some (.leaf (.truth _)) => True
  | some (.leaf (.name s)) => s ≠ "if"
  | _ => False

/-! ### Names -/

/-- The characters that calls, assignments, texts and operations are recognised by. -/
def signs : List Char := ['(', '"', '\''] ++ operatorChars

/-- A line of a name has no signs in it. -/
theorem not_mem_signs_of_isWord (hs : ∀ c ∈ s, Text.isWord c = true) :
    ∀ c ∈ 'e' :: 'l' :: 'i' :: 'f' :: ' ' :: (s ++ [':']), c ∉ signs := by
  have hsigns : ∀ c ∈ signs, c ∈ Text.delimiters := by decide
  have hword : ∀ c ∈ s, c ∉ signs := by
    intro c hc hmem
    exact (Text.isPlain_iff.1 (Text.isPlain_of_isWord (hs c hc))).1 (hsigns c hmem)
  simp only [List.forall_mem_cons, List.forall_mem_append]
  exact ⟨by decide, by decide, by decide, by decide, by decide, hword, by decide, by simp⟩

theorem matchIn_landmark_eq_none {e : Form × List (List String)} (he : e ∈ landmarks)
    (hname : e.1.name ≠ controlsIf.name ∧ e.1.name ≠ forever.name)
    (hs : ∀ c ∈ s, c ∉ signs) : e.1.matchIn (.ofList s) = none := by
  have hsign : ∀ e ∈ landmarks, e.1.name ≠ controlsIf.name ∧ e.1.name ≠ forever.name →
      ∃ words ∈ e.2, ∀ word ∈ words, ∃ c ∈ word.toList, c ∈ signs := by
    decide +kernel
  obtain ⟨words, hwords, hsign⟩ := hsign e he hname
  refine (demands_landmarks e he words hwords).matchIn_eq_none fun word hword hin => ?_
  obtain ⟨c, hc, hmem⟩ := hsign word hword
  exact hs c (hin.subset hc) hmem

theorem matchIn_forever_eq_none {c : Char} (hc : c ≠ 'd' ∧ c ≠ 'w') :
    forever.matchIn (.ofList (c :: s)) = none := by
  refine Form.matchIn_eq_none fun before piece rest groups hs h => ?_
  obtain ⟨u, v, gs, hs', rfl, -, ⟨hbefore, rfl, -⟩, hv⟩ := h
  obtain rfl : before = [] := List.reverse_eq_nil_iff.1 hbefore
  rcases hv with hv | hv
  · obtain ⟨t, rfl, -⟩ := spans_lit_cons.1 hv
    exact hc.1 (List.cons.inj hs).1
  · obtain ⟨t, rfl, -⟩ := spans_lit_cons.1 hv
    exact hc.2 (List.cons.inj hs).1

theorem spans_wordBoundary_cons {ps : List Pattern} :
    (all (wordBoundary :: ps)).Spans before piece rest groups ↔
      Place.atWordBoundary ⟨before, piece ++ rest⟩ = true ∧
        (all ps).Spans before piece rest groups := by
  rw [spans_all_cons]
  constructor
  · rintro ⟨_, v, _, hs, rfl, rfl, ⟨hboundary, rfl, rfl⟩, hv⟩
    exact ⟨hboundary, hv⟩
  · rintro ⟨hboundary, hv⟩
    exact ⟨[], piece, [], groups, rfl, rfl, ⟨hboundary, rfl, rfl⟩, hv⟩

/-- The word that starts a conditional stands by itself. -/
theorem spans_controlsIf (h : controlsIf.pattern.Spans before piece rest groups) :
    ∃ v, piece = 'i' :: 'f' :: v ∧ (∀ c, before.head? = some c → Text.isWord c = false) ∧
      ∀ c, (v ++ rest).head? = some c → Text.isWord c = false := by
  have hboundary {c d : Char} {b r : List Char} (hd : Text.isWord d = true)
      (h : Place.atWordBoundary ⟨c :: b, d :: r⟩ = true) : Text.isWord c = false := by
    simpa [Place.atWordBoundary, hd] using h
  obtain ⟨hbefore, hword⟩ := spans_wordBoundary_cons.1 h
  obtain ⟨v, rfl, hrest⟩ := spans_lit_cons.1 hword
  obtain ⟨hbehind, -⟩ := spans_wordBoundary_cons.1 hrest
  refine ⟨v, rfl, fun c hc => ?_, fun c hc => ?_⟩
  · obtain ⟨b, rfl⟩ := List.head?_eq_some_iff.1 hc
    exact hboundary (d := 'i') (by decide) hbefore
  · obtain ⟨r, hr⟩ := List.head?_eq_some_iff.1 hc
    have hf : "if".toList.reverse ++ before = 'f' :: 'i' :: before := rfl
    have hword : Text.isWord 'f' = true := by decide
    rw [hr, hf] at hbehind
    simpa [Place.atWordBoundary, hword] using hbehind

/-- The condition stands between the word and the colon. -/
theorem spans_controlsIf_condition (h : controlsIf.pattern.Spans before piece rest groups) :
    ∃ a u, piece = 'i' :: 'f' :: (a ++ (u ++ [':'])) ∧ groups = [(1, u)] := by
  obtain ⟨-, hword⟩ := spans_wordBoundary_cons.1 h
  obtain ⟨_, rfl, hrest⟩ := spans_lit_cons.1 hword
  obtain ⟨-, hblanks⟩ := spans_wordBoundary_cons.1 hrest
  obtain ⟨a, _, rfl, -, hgroup⟩ := spans_many_cons.1 hblanks
  obtain ⟨u, _, _, _, rfl, rfl, ⟨-, rfl⟩, hcolon⟩ := spans_group_cons.1 hgroup
  obtain ⟨rfl, rfl⟩ := spans_lit.1 hcolon
  exact ⟨a, u, rfl, rfl⟩

/-- Only the name `if` stands by itself as the word that starts a conditional. -/
theorem matchIn_controlsIf_eq_none (hs : ∀ c ∈ s, Text.isWord c = true) (hne : s ≠ "if".toList) :
    controlsIf.matchIn (.ofList ('e' :: 'l' :: 'i' :: 'f' :: ' ' :: (s ++ [':']))) = none := by
  refine Form.matchIn_eq_none fun before piece rest groups heq h => ?_
  obtain ⟨v, rfl, hbefore, hbehind⟩ := spans_controlsIf h
  rw [List.head?_reverse] at hbefore
  -- the word does not start before the name: in `elif` a letter stands in front of it
  have hsplit : ∃ b, before = 'e' :: 'l' :: 'i' :: 'f' :: ' ' :: b ∧
      s ++ [':'] = b ++ ('i' :: 'f' :: (v ++ rest)) := by
    rcases before with _ | ⟨c, _ | ⟨d, _ | ⟨e, _ | ⟨f, _ | ⟨g, b⟩⟩⟩⟩⟩
    · simp at heq
    · simp at heq
    · obtain ⟨rfl, rfl, -⟩ : 'e' = c ∧ 'l' = d ∧ _ := by simpa using heq
      exact nomatch (hbefore 'l' rfl).symm.trans (show Text.isWord 'l' = true by decide)
    · simp at heq
    · simp at heq
    · obtain ⟨rfl, rfl, rfl, rfl, rfl, htail⟩ :
          'e' = c ∧ 'l' = d ∧ 'i' = e ∧ 'f' = f ∧ ' ' = g ∧ s ++ [':'] = _ := by
        simpa using heq
      exact ⟨b, rfl, htail⟩
  obtain ⟨b, rfl, htail⟩ := hsplit
  rcases List.eq_nil_or_concat b with rfl | ⟨b, x, rfl⟩
  · have hif : ∀ c ∈ ['i', 'f'], Text.isWord c = true := by decide
    refine hne (append_inj_of_run hs hif ?_ hbehind htail).1
    exact head?_cons_eq_false (by decide) []
  · have hlast : Text.isWord x = false := by
      refine hbefore x ?_
      rw [List.concat_eq_append]
      exact List.getLast?_concat (l := 'e' :: 'l' :: 'i' :: 'f' :: ' ' :: b)
    have hlength := congrArg List.length htail
    have hprefix : b.concat x <+: s := by
      refine List.prefix_of_prefix_length_le ⟨_, htail.symm⟩ (List.prefix_append s [':']) ?_
      simp only [List.length_append, List.length_cons, List.length_nil] at hlength
      omega
    have hmem : x ∈ s := hprefix.subset (by simp)
    exact nomatch hlast.symm.trans (hs x hmem)

/-! ### Headers -/

theorem elifHeader_eq (condition : Option Formula) : elifHeader condition =
    'e' :: 'l' :: 'i' :: 'f' :: ' ' :: ((conditionCode "False" condition).toList ++ [':']) :=
  rfl

/-- The forms behind those with landmarks match a line as a whole. -/
theorem forms_eq : vocabulary.forms =
    landmarks.map Prod.fst ++ [mathArithmetic, logicBoolean, mathNumber, variablesGet] :=
  rfl

/-- The header with a name other than `if` goes to no form. -/
theorem firstMatch_header_name (hs : ∀ c ∈ s, Text.isWord c = true) (hne : s ≠ "if".toList) :
    vocabulary.firstMatch (.ofList ('e' :: 'l' :: 'i' :: 'f' :: ' ' :: (s ++ [':']))) = none := by
  have hsigns := not_mem_signs_of_isWord hs
  rw [Vocabulary.firstMatch_eq, List.findSome?_eq_none_iff]
  intro form hform
  rw [Option.map_eq_none_iff]
  have hsplit := hform
  rw [forms_eq, List.mem_append] at hsplit
  rcases hsplit with hmem | hmem
  · obtain ⟨e, he, rfl⟩ := List.mem_map.1 hmem
    by_cases hif : e.1.name = controlsIf.name
    · rw [Vocabulary.eq_of_name_eq hform (List.mem_of_getElem? (i := 13) rfl) hif]
      exact matchIn_controlsIf_eq_none hs hne
    · by_cases hforever : e.1.name = forever.name
      · rw [Vocabulary.eq_of_name_eq hform (List.mem_of_getElem? (i := 16) rfl) hforever]
        exact matchIn_forever_eq_none (by decide)
      · exact matchIn_landmark_eq_none he ⟨hif, hforever⟩ hsigns
  · -- the others match a line as a whole only, where there is no such blank and no colon
    refine Form.matchIn_eq_none fun before piece rest groups heq h => ?_
    simp only [List.mem_cons, List.not_mem_nil, or_false] at hmem
    rcases hmem with rfl | rfl | rfl | rfl
    · obtain ⟨c, hc, hoperator⟩ := spans_mathArithmetic_mem h
      refine hsigns c ?_ (List.mem_append_right _ hoperator)
      rw [heq]
      exact List.mem_append_right _ (List.mem_append_left _ (List.mem_of_mem_tail hc))
    · obtain ⟨hbefore, rfl, hword, -⟩ := spans_logicBoolean.1 h
      obtain rfl : before = [] := List.reverse_eq_nil_iff.1 hbefore
      rcases hword with rfl | rfl
      · exact absurd (List.cons.inj heq).1 (by decide)
      · exact absurd (List.cons.inj heq).1 (by decide)
    · obtain ⟨hbefore, rfl, -, sign, whole, places, rfl, hsign, hwhole, -⟩ := spans_mathNumber.1 h
      obtain rfl : before = [] := List.reverse_eq_nil_iff.1 hbefore
      rw [List.nil_append, List.append_nil] at heq
      rcases hsign with rfl | rfl
      · exact absurd (List.cons.inj heq).1 (by decide)
      · cases whole with
        | nil => exact hwhole.1 rfl
        | cons c whole =>
          have hdigit := hwhole.2 c List.mem_cons_self
          rw [← (List.cons.inj heq).1] at hdigit
          exact absurd hdigit (by decide)
    · obtain ⟨hbefore, rfl, hname, -⟩ := spans_variablesGet.1 h
      obtain rfl : before = [] := List.reverse_eq_nil_iff.1 hbefore
      rw [List.nil_append, List.append_nil] at heq
      have hblank := hname.isWord ' ' (by rw [← heq]; simp)
      exact absurd hblank (by decide)

theorem firstMatch_ne_none {form : Form} (hform : form ∈ vocabulary.forms)
    (h : (form.matchIn (.ofList s)).isSome = true) : vocabulary.firstMatch (.ofList s) ≠ none := by
  intro hnone
  rw [Vocabulary.firstMatch_eq, List.findSome?_eq_none_iff] at hnone
  have hmatch := hnone form hform
  rw [Option.map_eq_none_iff] at hmatch
  rw [hmatch] at h
  exact nomatch h

/-- A call in the header is matched where it stands. -/
theorem firstMatch_header_call {form : Form} {code : String} {pairs : List (String × Value)}
    (hform : form ∈ vocabulary.forms) (h : Takes form code pairs)
    (hanywhere : ∀ {before s rest groups}, form.pattern.Spans [] s [] groups →
      form.pattern.Spans before s rest groups) :
    vocabulary.firstMatch (.ofList (header "elif" code)) ≠ none := by
  obtain ⟨c, hmatch, -⟩ := h
  rw [← String.ofList_toList (s := code)] at hmatch
  obtain ⟨groups, hspans, -⟩ := Form.spans_of_matchWhole hmatch
  have hsome : (form.matchIn (.ofList ("elif ".toList ++ (code.toList ++ [':'])))).isSome = true :=
    Form.isSome_matchIn_of_spans (hanywhere hspans)
  exact firstMatch_ne_none hform hsome

/-- A comparison is matched in the header as a whole. -/
theorem firstMatch_header_comparison {op : Operator} {f g : Formula}
    (hop : op.isComparison = true) (hvalid : (Formula.binary op f g).Valid) :
    vocabulary.firstMatch (.ofList (header "elif" (Formula.binary op f g).code)) ≠ none := by
  let left := (Formula.wrap op.strengths.1 f.strength f.code).toList
  let right := (Formula.wrap op.strengths.2 g.strength g.code).toList
  have hcode : (Formula.binary op f g).code.toList =
      left ++ ([' '] ++ (op.symbol.toList ++ ([' '] ++ right))) := by
    simp [Formula.code, left, right]
  have hfeed : '\n' ∉ (Formula.binary op f g).code.toList := by
    obtain ⟨ops, hchunk, -⟩ := (Formula.reads_regroup hvalid).chunk
    exact hchunk.not_mem.1
  have hinLine {s : List Char} (hs : '\n' ∉ s) : ∀ c ∈ s, inLine c = true := by
    intro c hc
    rw [inLine, decide_eq_true_iff]
    rintro rfl
    exact hs hc
  rw [hcode] at hfeed
  simp only [List.mem_append, not_or] at hfeed
  have hleft : IsRun inLine ("elif ".toList ++ left) := by
    refine ⟨List.cons_ne_nil _ _, List.forall_mem_append.2 ⟨by decide, hinLine hfeed.1⟩⟩
  have hright : IsRun inLine (right ++ [':']) := by
    refine ⟨by simp, List.forall_mem_append.2 ⟨hinLine hfeed.2.2.2.2, by decide⟩⟩
  have hsymbol : op.symbol.toList = ['=', '='] ∨ op.symbol.toList = ['!', '='] ∨
      op.symbol.toList = ['<', '='] ∨ op.symbol.toList = ['>', '='] ∨ op.symbol.toList = ['<'] ∨
      op.symbol.toList = ['>'] := by
    cases op <;> first | decide | cases hop
  have hblank : ∀ c ∈ [' '], Text.isWhite c = true := by decide
  have hspans := spans_logicCompare.2 ⟨rfl, rfl, _, [' '], _, [' '], _, rfl, rfl, hleft, hblank,
    hsymbol, hblank, hright⟩
  have hsome : (logicCompare.matchIn (.ofList ([] ++ (_ ++ [])))).isSome = true :=
    Form.isSome_matchIn_of_spans hspans
  have hline : header "elif" (Formula.binary op f g).code = [] ++ (("elif ".toList ++ left) ++
      ([' '] ++ (op.symbol.toList ++ ([' '] ++ (right ++ [':'])))) ++ []) := by
    rw [header, hcode]
    simp
  rw [hline]
  exact firstMatch_ne_none (List.mem_of_getElem? (i := 25) rfl) hsome

/-- The header of an arm goes to no form just if its condition is quiet. -/
theorem firstMatch_header_eq_none_iff {condition : Option Formula}
    (h : ∀ f, condition = some f → f.Valid ∧
      Capability.compatible (some .boolean) f.output = true) :
    vocabulary.firstMatch (.ofList (elifHeader condition)) = none ↔ IsQuiet condition := by
  match condition with
  | none => exact iff_of_true (by decide +kernel) trivial
  | some (.binary op f g) =>
    obtain ⟨hvalid, houtput⟩ := h _ rfl
    have hop : op.isComparison = true := by
      cases op <;> first | rfl | exact nomatch houtput
    exact iff_of_false (firstMatch_header_comparison hop hvalid) id
  | some (.leaf l) =>
    obtain ⟨hvalid, houtput⟩ := h _ rfl
    cases l with
    | name s =>
      by_cases hs : s = "if"
      · rw [hs]
        exact iff_of_false (by decide +kernel) fun h => h rfl
      · refine iff_of_true (firstMatch_header_name ?_ fun h => hs (String.toList_inj.1 h)) hs
        exact IsIdentifier.isWord (Leaf.IsName.identifier hvalid)
    | truth b => cases b <;> exact iff_of_true (by decide +kernel) trivial
    | light x y =>
      refine iff_of_false ?_ id
      exact firstMatch_header_call (List.mem_of_getElem? (i := 12) rfl) (takes_pointLed hvalid)
        fun h => spans_pointLed.2 (spans_pointLed.1 h)
    | button which =>
      refine iff_of_false ?_ id
      exact firstMatch_header_call (List.mem_of_getElem? (i := 15) rfl)
        (takes_buttonIsPressed hvalid) fun h => spans_buttonIsPressed.2 (spans_buttonIsPressed.1 h)
    | _ => exact nomatch houtput

end ScriptBlocks.Dialect
