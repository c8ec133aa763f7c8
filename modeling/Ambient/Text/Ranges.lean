/-!
# Ranges of code points

A property of characters is given as a list of inclusive ranges in ascending
order.  The search stops at the first range that ends at or after the code
point, so small code points are decided quickly.
-/

namespace Ambient.Text

/-- Whether a number lies in one of the ascending ranges. -/
def inRanges : List (Nat × Nat) → Nat → Bool
  | [], _ => false
  | (first, last) :: rest, n => if n ≤ last then decide (first ≤ n) else inRanges rest n

end Ambient.Text
