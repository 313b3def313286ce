/-!
# White space

The characters with the Unicode property `White_Space`, and trimming by it.

## Main definitions

* `isWhite` — the property
* `trim` — the text without white space at either end
* `isBlank` — whether a text is white space only
-/

namespace ScriptBlocks.Text

/-- Whether `c` is white space. -/
def isWhite (c : Char) : Bool :=
  let n := c.toNat
  (9 ≤ n && n ≤ 13) || n = 0x20 || n = 0x85 || n = 0xA0 || n = 0x1680 ||
    (0x2000 ≤ n && n ≤ 0x200A) || n = 0x2028 || n = 0x2029 || n = 0x202F || n = 0x205F || n = 0x3000

/-- Drops the white space at the end. -/
def trimEnd (s : List Char) : List Char := (s.reverse.dropWhile isWhite).reverse

/-- Drops the white space at both ends. -/
def trim (s : List Char) : List Char := trimEnd (s.dropWhile isWhite)

/-- Whether the text holds nothing but white space. -/
def isBlank (s : List Char) : Bool := s.all isWhite

end ScriptBlocks.Text
