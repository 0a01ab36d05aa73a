/-!
# Ranges of code points

A property of characters is given by ranges of code points, each with both of its ends.
-/

namespace SearchCompiler.Text

def inRanges (ranges : List (Nat × Nat)) (n : Nat) : Bool :=
  ranges.any fun r => r.1 ≤ n && n ≤ r.2

/-- Whether the code point of a character lies in one of the ranges. -/
def isAmong (ranges : List (Nat × Nat)) (c : Char) : Bool :=
  inRanges ranges c.toNat

end SearchCompiler.Text
