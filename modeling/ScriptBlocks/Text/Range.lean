/-!
# Ranges of code points

Character properties are given as lists of code point ranges in increasing order, both ends
included. ASCII characters are always decided by a test of their own, so a table is consulted for
the others only.
-/

namespace ScriptBlocks.Text

/-- Whether the code point of `c` lies in one of `ranges`. -/
def inRanges (ranges : List (Nat × Nat)) (c : Char) : Bool :=
  ranges.any fun r => r.1 ≤ c.toNat && c.toNat ≤ r.2

end ScriptBlocks.Text
