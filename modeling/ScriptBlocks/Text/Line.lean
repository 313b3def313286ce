/-!
# Lines

Two notions of line. A *piece* keeps the line feed that ends it, so the pieces of a text put
together give the text back. A *document line* has lost its ending, which may be a line feed, a
carriage return, or the two together; a document always has at least one line.

## Main definitions

* `pieces` — the pieces of a text
* `documentLines` — the lines of a document
-/

namespace ScriptBlocks.Text

/-- Cuts a text after each line feed. -/
def pieces : List Char → List (List Char)
  | [] => []
  | c :: rest =>
    if c = '\n' then [c] :: pieces rest
    else match pieces rest with
      | [] => [[c]]
      | p :: ps => (c :: p) :: ps

@[simp] theorem flatten_pieces (s : List Char) : (pieces s).flatten = s := by
  fun_induction pieces s <;> simp_all

theorem ne_nil_of_mem_pieces {s p : List Char} (h : p ∈ pieces s) : p ≠ [] := by
  fun_induction pieces s <;> simp_all
  all_goals rcases h with rfl | h <;> simp_all

/-- Puts a character in front of the first line. -/
def consLine (c : Char) : List (List Char) → List (List Char)
  | [] => [[c]]
  | l :: ls => (c :: l) :: ls

/-- The lines of a document without their endings. -/
def documentLines : List Char → List (List Char)
  | [] => [[]]
  | '\r' :: '\n' :: rest => [] :: documentLines rest
  | '\r' :: rest => [] :: documentLines rest
  | '\n' :: rest => [] :: documentLines rest
  | c :: rest => consLine c (documentLines rest)

theorem documentLines_ne_nil (s : List Char) : documentLines s ≠ [] := by
  fun_cases documentLines s <;> simp
  rename_i rest _ _ _
  cases documentLines rest <;> simp [consLine]

end ScriptBlocks.Text
