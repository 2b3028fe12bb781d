/-!
# Sets of characters given by ranges of code points

A property of the Unicode standard is a list of inclusive ranges in increasing order.
-/

namespace CaseUnion.Text

abbrev CodeRanges := List (Nat × Nat)

def CodeRanges.contains (ranges : CodeRanges) (c : Char) : Bool :=
  ranges.any fun (low, high) => low ≤ c.toNat && c.toNat ≤ high

end CaseUnion.Text
