/-!
# Ranges of integers

The integers that fit the fields of settings and documents.
-/

namespace Barogrid

/-- The integers from `least` to `greatest`. -/
structure IntegerRange where
  least : Int
  greatest : Int
deriving DecidableEq, Repr

namespace IntegerRange

/-- 32 bits with sign. -/
def int32 : IntegerRange := ⟨-0x80000000, 0x7fffffff⟩

/-- 64 bits with sign. -/
def int64 : IntegerRange := ⟨-0x8000000000000000, 0x7fffffffffffffff⟩

/-- 64 bits without sign. -/
def word : IntegerRange := ⟨0, 0xffffffffffffffff⟩

/-- Does `i` lie in the range? -/
def contains (r : IntegerRange) (i : Int) : Bool := r.least ≤ i && i ≤ r.greatest

theorem contains_iff {r : IntegerRange} {i : Int} :
    r.contains i = true ↔ r.least ≤ i ∧ i ≤ r.greatest := by
  simp [contains]

end IntegerRange

end Barogrid
