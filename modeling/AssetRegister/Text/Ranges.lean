/-!
# Sets of code points

A set of code points is given by the ranges that make it up, both ends of a range included.
-/

namespace AssetRegister.Text

/-- Whether some range holds the code point. -/
def inRanges (ranges : List (Nat × Nat)) (n : Nat) : Bool :=
  ranges.any fun r => r.1 ≤ n && n ≤ r.2

end AssetRegister.Text
