/-!
# Text — code ranges

A set of characters given by ranges of their code points.
-/

namespace SqlCaret

/-- Ranges of code points, the first and the last of each. -/
abbrev CodeRanges := List (Nat × Nat)

/-- Whether a character is in one of the ranges. -/
def CodeRanges.has (ranges : CodeRanges) (c : Char) : Bool :=
  ranges.any fun r => r.1 ≤ c.toNat && c.toNat ≤ r.2

end SqlCaret
