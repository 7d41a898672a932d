/-!
# Sets of characters

A property of characters is a list of ranges of code points, each with its first and last member.
-/

set_option autoImplicit false

namespace ChartScript.Text

/-- Whether a character lies in one of the ranges. -/
def inRanges (ranges : List (Nat × Nat)) (c : Char) : Bool :=
  ranges.any fun (first, last) => first ≤ c.toNat && c.toNat ≤ last

end ChartScript.Text
