import ScriptBlocks.Json.Basic

/-!
# Writing JSON

A document is written over several lines, each level two spaces further in, with one item or member
a line and a space after the colon of a member. An array or object without content is written as its
two brackets.

## Main definitions

* `Json.pretty` — the text of a document
-/

namespace ScriptBlocks.Json

/-- The text of a number. An exponent always has a sign. -/
def Number.chars (n : Number) : List Char :=
  let sign := if n.negative then ['-'] else []
  let point := if n.places = [] then [] else '.' :: n.places
  let scale := match n.exponent with
    | none => []
    | some e => 'e' :: (if e < 0 then '-' else '+') :: Nat.toDigits 10 e.natAbs
  sign ++ Nat.toDigits 10 n.whole ++ point ++ scale

/-- A line feed and the indentation of a level. -/
def newline (level : Nat) : List Char := '\n' :: List.replicate (2 * level) ' '

mutual

/-- The text of a document that starts on a line of the given level. -/
def prettyAt (level : Nat) : Json → List Char
  | null => "null".toList
  | bool true => "true".toList
  | bool false => "false".toList
  | number n => n.chars
  | string raw => '"' :: raw ++ ['"']
  | array [] => ['[', ']']
  | array (item :: items) =>
    '[' :: newline (level + 1) ++ prettyAt (level + 1) item ++ prettyItems (level + 1) items ++
      newline level ++ [']']
  | object [] => ['\x7b', '\x7d']
  | object ((key, value) :: members) =>
    '\x7b' :: newline (level + 1) ++ '"' :: key ++ ['"', ':', ' '] ++ prettyAt (level + 1) value ++
      prettyMembers (level + 1) members ++ newline level ++ ['\x7d']

/-- The items of an array after the first, each behind a comma. -/
def prettyItems (level : Nat) : List Json → List Char
  | [] => []
  | item :: items => ',' :: newline level ++ prettyAt level item ++ prettyItems level items

/-- The members of an object after the first, each behind a comma. -/
def prettyMembers (level : Nat) : List (List Char × Json) → List Char
  | [] => []
  | (key, value) :: members =>
    ',' :: newline level ++ '"' :: key ++ ['"', ':', ' '] ++ prettyAt level value ++
      prettyMembers level members

end

/-- The text of a document. -/
def pretty (j : Json) : String := String.ofList (prettyAt 0 j)

end ScriptBlocks.Json
