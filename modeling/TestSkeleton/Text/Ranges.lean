/-!
# Code point ranges

A class of characters is written as the list of its ranges, each with its
first and last code point, in ascending order.
-/

namespace TestSkeleton.Text

/-- Whether the code point `n` lies in one of the ranges.  The ranges
ascend, so the search ends at the first range that starts above `n`. -/
def inRanges (n : Nat) : List (Nat × Nat) → Bool
  | [] => false
  | (first, last) :: rest => first ≤ n && (n ≤ last || inRanges n rest)

end TestSkeleton.Text
