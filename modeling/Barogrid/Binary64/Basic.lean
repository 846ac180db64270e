/-!
# Doubles as a sign and a magnitude

A `Binary64` is an IEEE 754 double kept as its sign bit and its other 63 bits read as a number.
The magnitudes of the finite doubles, of the infinities and of the NaNs follow each other in this
order, so that comparing doubles is comparing numbers.

This file fixes:

* the classes (`isNaN`, `isFinite`) and the exact value of a finite double, which is a whole number
  of units of 2 to the -1074 (`units`);
* the two orders: `<` and `≤`, in which a NaN stands nowhere and the two zeros are one point, and
  `totalRank`, which places every double, NaNs at both ends.

A sign is kept for NaNs as well, because the total order looks at it.  Rounding and arithmetic are
in `Barogrid.Binary64.Rounding` and `Barogrid.Binary64.Arithmetic`.
-/

namespace Barogrid

/-- A double: its sign bit, and its other 63 bits read as a number. -/
structure Binary64 where
  /-- The sign bit. -/
  negative : Bool
  /-- The bits below the sign bit. -/
  magnitude : Nat
  magnitude_lt : magnitude < 0x8000000000000000
deriving DecidableEq

namespace Binary64

/-! ## 1. Classes -/

/-- The magnitude of the infinities: all exponent bits set, no fraction bit. -/
@[noinline]
def infiniteMagnitude : Nat := 0x7ff0000000000000

/-- The weight of the bit above the fraction, from which the exponent counts. -/
@[noinline]
def leadingBit : Nat := 0x10000000000000

theorem infiniteMagnitude_lt : infiniteMagnitude < 0x8000000000000000 := by decide

/-- The double of a sign and a magnitude; what does not fit becomes an infinity. -/
def ofMagnitude (negative : Bool) (magnitude : Nat) : Binary64 :=
  ⟨negative, min magnitude infiniteMagnitude,
    Nat.lt_of_le_of_lt (Nat.min_le_right _ _) infiniteMagnitude_lt⟩

/-- The zero of a sign. -/
def zero (negative : Bool) : Binary64 := ⟨negative, 0, by decide⟩

/-- The infinity of a sign. -/
def infinity (negative : Bool) : Binary64 := ⟨negative, infiniteMagnitude, infiniteMagnitude_lt⟩

/-- The quiet NaN of a sign. -/
def nan (negative : Bool) : Binary64 := ⟨negative, 0x7ff8000000000000, by decide⟩

instance : Inhabited Binary64 := ⟨zero false⟩

/-- Beyond the infinities there are only NaNs. -/
def isNaN (x : Binary64) : Bool := infiniteMagnitude < x.magnitude

/-- Is `x` one of the two infinities? -/
def isInfinite (x : Binary64) : Bool := x.magnitude == infiniteMagnitude

/-- Below the infinities all doubles are finite. -/
def isFinite (x : Binary64) : Bool := x.magnitude < infiniteMagnitude

/-- Is `x` one of the two zeros? -/
def isZero (x : Binary64) : Bool := x.magnitude == 0

/-! ## 2. The value of a finite double -/

/-- The power of two, in units of 2 to the -1074, that the last place of `x` stands for. -/
def scale (x : Binary64) : Nat := x.magnitude / leadingBit - 1

/-- The number of last places in `x`: the fraction bits, with the leading bit that a normal double
leaves out. -/
def significand (x : Binary64) : Nat :=
  if x.magnitude < leadingBit then x.magnitude else leadingBit + x.magnitude % leadingBit

/-- `n` with the sign of `x`. -/
def signed (x : Binary64) (n : Nat) : Int := if x.negative then -(n : Int) else n

/-- **Every finite double is a whole number of units of 2 to the -1074;** this is the number. -/
def units (x : Binary64) : Int := x.signed (x.significand <<< x.scale)

/-! ## 3. Order -/

/-- The place of `x` on the line of all doubles that are no NaN. -/
def rank (x : Binary64) : Int := x.signed x.magnitude

/-- Does `x` stand before `y` on the line?  The two zeros stand at one point. -/
def precedes (x y : Binary64) : Bool :=
  if x.negative then
    if y.negative then y.magnitude < x.magnitude else 0 < x.magnitude || 0 < y.magnitude
  else !y.negative && x.magnitude < y.magnitude

theorem precedes_iff {x y : Binary64} : x.precedes y = true ↔ x.rank < y.rank := by
  obtain ⟨nx, mx, _⟩ := x
  obtain ⟨ny, my, _⟩ := y
  cases nx with
  | false => cases ny <;> simp [precedes, rank, signed]
  | true =>
    cases ny with
    | false =>
      simp [precedes, rank, signed]
      omega
    | true => simp [precedes, rank, signed]

/-- `x` is less than `y`; a NaN is not less than anything. -/
def lt (x y : Binary64) : Bool := !x.isNaN && !y.isNaN && x.precedes y

/-- `x` is at most `y`; a NaN is not at most anything. -/
def le (x y : Binary64) : Bool := !x.isNaN && !y.isNaN && !y.precedes x

instance : LT Binary64 := ⟨fun x y => x.lt y = true⟩

instance : LE Binary64 := ⟨fun x y => x.le y = true⟩

instance (x y : Binary64) : Decidable (x < y) := inferInstanceAs (Decidable (x.lt y = true))

instance (x y : Binary64) : Decidable (x ≤ y) := inferInstanceAs (Decidable (x.le y = true))

theorem lt_iff {x y : Binary64} :
    x < y ↔ x.isNaN = false ∧ y.isNaN = false ∧ x.rank < y.rank := by
  show x.lt y = true ↔ _
  simp [lt, precedes_iff, and_assoc]

theorem le_iff {x y : Binary64} :
    x ≤ y ↔ x.isNaN = false ∧ y.isNaN = false ∧ x.rank ≤ y.rank := by
  show x.le y = true ↔ _
  simp [le, ← precedes_iff, and_assoc, ← Int.not_lt]

/-- The place of `x` among all doubles: negative NaNs first, then the line, on which the negative
zero precedes the positive one, and positive NaNs last. -/
def totalRank (x : Binary64) : Int :=
  if x.negative then -1 - (x.magnitude : Int) else x.magnitude

/-- The total order of the doubles. -/
def totalLE (x y : Binary64) : Bool := x.totalRank ≤ y.totalRank

theorem totalRank_injective {x y : Binary64} (h : x.totalRank = y.totalRank) : x = y := by
  obtain ⟨nx, mx, hx⟩ := x
  obtain ⟨ny, my, hy⟩ := y
  cases nx <;> cases ny <;> simp_all [totalRank] <;> omega

theorem totalLE_trans (x y z : Binary64) (h : x.totalLE y) (h' : y.totalLE z) : x.totalLE z := by
  simp only [totalLE, decide_eq_true_eq] at *
  omega

theorem totalLE_total (x y : Binary64) : x.totalLE y || y.totalLE x := by
  simp only [totalLE, Bool.or_eq_true, decide_eq_true_eq]
  omega

/-! ## 4. Choosing between two doubles -/

/-- The lesser of `x` and `y`; a NaN yields to the other, and of equal ones `x` is kept. -/
def least (x y : Binary64) : Binary64 :=
  if x.isNaN then y else if y < x then y else x

/-- The greater of `x` and `y`; a NaN yields to the other, and of equal ones `x` is kept. -/
def greatest (x y : Binary64) : Binary64 :=
  if x.isNaN then y else if x < y then y else x

/-- `x` moved to the nearer end of `lo` … `hi` when it lies outside; a NaN stays. -/
def clamp (x lo hi : Binary64) : Binary64 :=
  let y := if x < lo then lo else x
  if hi < y then hi else y

/-- Does `x` lie in `lo` … `hi`, ends included? -/
def within (x lo hi : Binary64) : Bool := lo ≤ x && x ≤ hi

end Binary64

end Barogrid
