/-!
# Text/Range — character properties given by ranges

A property of characters is written as a list of closed ranges of code points.
-/

namespace Jigsaw.Text

/-- The character lies in one of the closed ranges. -/
def inRanges (ranges : List (Nat × Nat)) (c : Char) : Bool :=
  ranges.any fun r => r.1 ≤ c.toNat && c.toNat ≤ r.2

end Jigsaw.Text
