import ScriptBlocks.Text.Digit
import ScriptBlocks.Text.Word
import ScriptBlocks.Text.Blank

/-!
# Patterns

A pattern describes pieces of text. Matching is by priority: of the ways in which a pattern can
match from a given place, the first in the order of its alternatives is taken, where a greedy
repetition tries to go on before it stops and a lazy one tries to stop before it goes on. Searching
takes the leftmost place from which the pattern matches at all.

Repetition is of single characters only, there are no flags, and a place that is not a word boundary
cannot be asked for. The forms of the dialect need no more, and it makes every match end without a
bound on the number of steps. A host that wants more of its own patterns finds it left out here; how
forms are chosen, and what is done with a match, does not depend on the shape of a pattern.

This module says what a match is. How the leftmost one is found without trying the same way
twice is in `ScriptBlocks.Pattern.Search`.

## Main definitions

* `Pattern` — the patterns
* `Pattern.run` — matching from one place, with a continuation that may refuse a way to match
* `Pattern.matchAt`, `Pattern.leftmost` — the match from an offset, and the leftmost match
-/

namespace ScriptBlocks

/-- A pattern over characters. -/
inductive Pattern where
  /-- The empty text. -/
  | nothing
  /-- One character that passes the test. -/
  | one (test : Char → Bool)
  | seq (first second : Pattern)
  /-- Either pattern, the first one preferred. -/
  | alt (first second : Pattern)
  /-- Any number of characters that pass the test, preferably many. -/
  | many (test : Char → Bool)
  /-- Any number of characters that pass the test, preferably few. -/
  | few (test : Char → Bool)
  /-- The pattern, remembering what it matched as a numbered group. -/
  | group (index : Nat) (body : Pattern)
  /-- The start of the text. -/
  | atStart
  /-- The end of the text. -/
  | atEnd
  /-- A place with a word character on exactly one side. -/
  | wordBoundary

namespace Pattern

/-- The text of a literal. -/
def chars : List Char → Pattern
  | [] => nothing
  | [c] => one (· = c)
  | c :: cs => seq (one (· = c)) (chars cs)

/-- A literal text. -/
def lit (s : String) : Pattern := chars s.toList

instance : Coe String Pattern := ⟨lit⟩

/-- One pattern after the other. -/
def all : List Pattern → Pattern
  | [] => nothing
  | [p] => p
  | p :: ps => seq p (all ps)

/-- The first pattern that works out. -/
def anyOf : List Pattern → Pattern
  | [] => one fun _ => false
  | [p] => p
  | p :: ps => alt p (anyOf ps)

/-- The pattern or the empty text, preferably the pattern. -/
def optional (p : Pattern) : Pattern := alt p nothing

/-- At least one character that passes the test, preferably many. -/
def atLeastOne (test : Char → Bool) : Pattern := seq (one test) (many test)

/-- At least one character that passes the test, preferably few. -/
def atLeastOneFew (test : Char → Bool) : Pattern := seq (one test) (few test)

/-- The pattern `n` times over. -/
def times (n : Nat) (p : Pattern) : Pattern := all (List.replicate n p)

/-- Any run of white space, preferably long. -/
def blanks : Pattern := many Text.isWhite

/-- At least one white space character, preferably many. -/
def someBlanks : Pattern := atLeastOne Text.isWhite

/-- At least one digit, preferably many. -/
def digits : Pattern := atLeastOne Text.isDigit

/-- A place in a text: the characters before it, the nearest first, and those after it. -/
structure Place where
  before : List Char
  rest : List Char

namespace Place

/-- The place at an offset of a text. -/
def ofOffset (s : List Char) (i : Nat) : Place := ⟨(s.take i).reverse, s.drop i⟩

/-- How many characters stand before the place. -/
def offset (s : Place) : Nat := s.before.length

/-- Whether exactly one side of the place is a word character. -/
def atWordBoundary (s : Place) : Bool :=
  s.before.head?.any Text.isWord != s.rest.head?.any Text.isWord

@[simp] theorem offset_ofOffset {s : List Char} {i : Nat} (h : i ≤ s.length) :
    (ofOffset s i).offset = i := by
  simp [offset, ofOffset, h]

theorem ofOffset_of_lt {s : List Char} {i : Nat} (hi : i < s.length) :
    ofOffset s i = ⟨(s.take i).reverse, s[i] :: s.drop (i + 1)⟩ := by
  rw [ofOffset, List.drop_eq_getElem_cons hi]

theorem ofOffset_succ {s : List Char} {i : Nat} (hi : i < s.length) :
    ofOffset s (i + 1) = ⟨s[i] :: (s.take i).reverse, s.drop (i + 1)⟩ := by
  rw [ofOffset, List.take_succ_eq_append_getElem hi, List.reverse_append]
  rfl

end Place

/-- What a group matched: its number, and the offsets where it starts and stops. -/
structure Group where
  index : Nat
  start : Nat
  stop : Nat
deriving DecidableEq

/-- What is left of a match after some place: the value given at its end, and the groups that start
there or later, in the order of their starts. -/
structure Ending (α : Type) where
  value : α
  groups : List Group
deriving DecidableEq

namespace Ending

variable {α : Type}

/-- Keeps the offset where a group stops until its start is known. -/
def stoppingAt (e : Ending α) (stop : Nat) : Ending (α × Nat) := ⟨(e.value, stop), e.groups⟩

/-- Adds the group whose stop was kept. -/
def startingAt (e : Ending (α × Nat)) (index start : Nat) : Ending α :=
  ⟨e.value.1, ⟨index, start, e.value.2⟩ :: e.groups⟩

end Ending

/-- A greedy repetition between the characters before a place and those after it: it takes the
longest run that the continuation accepts. -/
def runMany {β : Type} (test : Char → Bool) (k : Place → Option β) :
    List Char → List Char → Option β
  | before, [] => k ⟨before, []⟩
  | before, c :: rest =>
    if test c then (runMany test k (c :: before) rest).orElse fun _ => k ⟨before, c :: rest⟩
    else k ⟨before, c :: rest⟩

/-- A lazy repetition between the characters before a place and those after it: it takes the
shortest run that the continuation accepts. -/
def runFew {β : Type} (test : Char → Bool) (k : Place → Option β) :
    List Char → List Char → Option β
  | before, [] => k ⟨before, []⟩
  | before, c :: rest =>
    (k ⟨before, c :: rest⟩).orElse fun _ =>
      if test c then runFew test k (c :: before) rest else none

/-- Goes through the ways to match from a place in the order of priority, and gives the first
result of the continuation, with the groups that were passed on that way. -/
def run : Pattern → {α : Type} → (Place → Option (Ending α)) → Place → Option (Ending α)
  | nothing, _, k, s => k s
  | one test, _, k, s =>
    match s.rest with
    | c :: rest => if test c then k ⟨c :: s.before, rest⟩ else none
    | [] => none
  | seq p q, _, k, s => p.run (q.run k) s
  | alt p q, _, k, s => (p.run k s).orElse fun _ => q.run k s
  | many test, _, k, s => runMany test k s.before s.rest
  | few test, _, k, s => runFew test k s.before s.rest
  | group i p, _, k, s =>
    (p.run (fun t => (k t).map fun e => e.stoppingAt t.offset) s).map fun e =>
      e.startingAt i s.offset
  | atStart, _, k, s => if s.before.isEmpty then k s else none
  | atEnd, _, k, s => if s.rest.isEmpty then k s else none
  | wordBoundary, _, k, s => if s.atWordBoundary then k s else none

/-- The end of a match: the offset that it has come to. -/
def finish (s : Place) : Option (Ending Nat) := some ⟨s.offset, []⟩

/-- The match that starts at an offset of `s`, by the offset where it stops. -/
def matchAt (p : Pattern) (s : List Char) (start : Nat) : Option (Ending Nat) :=
  p.run finish (.ofOffset s start)

/-- The first offset of `s` from which the pattern matches, with the match. -/
def leftmost (p : Pattern) (s : List Char) : Option (Nat × Ending Nat) :=
  (List.range (s.length + 1)).findSome? fun start => (p.matchAt s start).map (start, ·)

end Pattern

end ScriptBlocks
