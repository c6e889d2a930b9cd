/-!
# Membership in runs of code points
-/

namespace DialogTree

/-- Whether one of the runs, given by first and last code point, holds the character. -/
def inRanges (ranges : List (Nat × Nat)) (c : Char) : Bool :=
  ranges.any fun range => range.1 ≤ c.toNat && c.toNat ≤ range.2

end DialogTree
