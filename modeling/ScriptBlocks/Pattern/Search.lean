import ScriptBlocks.Pattern.Matcher

/-!
# Searching a text for a pattern

## Main definitions

* `Capture` — a match in a text, with its groups
* `Pattern.search` — the leftmost match in a text
* `Pattern.matchStart` — the match at the start of a text

## Main statements

* `Pattern.search_eq` — a search finds the leftmost match
* `Pattern.filter_isWhole_matchStart` — only the match at the start can cover the whole text
-/

namespace ScriptBlocks

/-- A match of a pattern in a text: the text before it, what was matched, and the text after it,
with the groups that took part, the last one first. -/
structure Capture where
  before : String
  text : String
  after : String
  groups : List (Nat × String)
deriving DecidableEq

namespace Capture

/-- The text of a group, if it took part in the match. -/
def group? (c : Capture) (i : Nat) : Option String :=
  (c.groups.find? fun g => g.1 = i).map Prod.snd

/-- The text of a group, empty if it did not take part. -/
def group (c : Capture) (i : Nat) : String := (c.group? i).getD ""

/-- Whether the match covers the whole text. -/
def isWhole (c : Capture) : Bool := c.before = "" && c.after = ""

/-- The part of `s` from one offset to another. -/
def slice (s : List Char) (start stop : Nat) : String :=
  String.ofList ((s.drop start).take (stop - start))

/-- The match in `s` that starts at offset `start` and ends with `e`. -/
def ofEnding (s : List Char) (start : Nat) (e : Pattern.Ending Nat) : Capture where
  before := slice s 0 start
  text := slice s start e.value
  after := String.ofList (s.drop e.value)
  groups := e.groups.reverse.map fun g => (g.index, slice s g.start g.stop)

end Capture

namespace Pattern

/-- The leftmost match in a text given by its characters. -/
def searchIn (p : Pattern) (text : Array Char) : Option Capture :=
  ((p.wholeMatcher text).first? (text.size + 1) 0).map fun (start, e) =>
    .ofEnding text.toList start e

/-- The match at the start of a text given by its characters. -/
def matchStartOf (p : Pattern) (text : Array Char) : Option Capture :=
  ((p.wholeMatcher text).resultAt 0).map (.ofEnding text.toList 0)

/-- The leftmost match in a text. -/
def search (p : Pattern) (s : String) : Option Capture := p.searchIn s.toList.toArray

/-- The match at the start of a text. -/
def matchStart (p : Pattern) (s : String) : Option Capture := p.matchStartOf s.toList.toArray

/-- A search finds the leftmost match. -/
theorem search_eq (p : Pattern) (s : String) :
    p.search s = (p.leftmost s.toList).map fun (start, e) => .ofEnding s.toList start e := by
  rw [search, searchIn, Matcher.first?_eq fun i hi =>
    resultAt_wholeMatcher p (by simpa [Nat.lt_succ_iff] using hi), leftmost, List.range_eq_range']
  rfl

theorem matchStart_eq (p : Pattern) (s : String) :
    p.matchStart s = (p.matchAt s.toList 0).map (.ofEnding s.toList 0) := by
  rw [matchStart, matchStartOf, resultAt_wholeMatcher p (Nat.zero_le _)]

theorem isWhole_ofEnding_eq_false {s : List Char} {start : Nat} (hstart : start ≠ 0)
    (h : start ≤ s.length) (e : Ending Nat) : (Capture.ofEnding s start e).isWhole = false := by
  have hs : s ≠ [] := by
    rintro rfl
    exact hstart (Nat.le_zero.1 h)
  simp [Capture.isWhole, Capture.ofEnding, Capture.slice, hstart, hs]

/-- A match covers a whole text just if it is the leftmost one and covers the whole text: no match
behind the start does. -/
theorem filter_isWhole_matchStart (p : Pattern) (s : String) :
    (p.matchStart s).filter Capture.isWhole = (p.search s).filter Capture.isWhole := by
  rw [search_eq, matchStart_eq]
  cases h : p.matchAt s.toList 0 with
  | some e => simp [leftmost, List.range_succ_eq_map, h]
  | none =>
    refine (Option.filter_eq_none_iff.2 ?_).symm
    intro c hc
    obtain ⟨⟨start, e⟩, hfound, rfl⟩ := Option.map_eq_some_iff.1 hc
    obtain ⟨i, hi, he⟩ := List.exists_of_findSome?_eq_some hfound
    obtain ⟨_, hmatch, hpair⟩ := Option.map_eq_some_iff.1 he
    cases hpair
    have hstart : start ≠ 0 := by
      rintro rfl
      exact nomatch h.symm.trans hmatch
    rw [isWhole_ofEnding_eq_false hstart (Nat.le_of_lt_succ (List.mem_range.1 hi))]
    exact Bool.false_ne_true

end Pattern

end ScriptBlocks
