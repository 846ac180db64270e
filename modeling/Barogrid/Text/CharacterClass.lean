/-!
# Classes of characters

A class of characters is given by a table of ranges, ends included, in ascending order.
-/

namespace Barogrid.Text

/-- Is `c` in one of the ranges? -/
def inRanges (ranges : Array (Nat × Nat)) (c : Char) : Bool :=
  ranges.any fun (first, last) => first ≤ c.toNat && c.toNat ≤ last

end Barogrid.Text
