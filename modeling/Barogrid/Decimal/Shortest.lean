import Barogrid.Binary64.Rounding

/-!
# The shortest decimal that reads back

`Binary64.shortest` finds, for a finite positive double, the decimal with the fewest digits that
rounds to it, and of several such the one nearest to it.

The reals that round to a double form an interval around it, whose ends belong to it when the last
place is even.  The multiples of a power of ten form a grid; the coarsest grid with a point in the
interval gives the fewest digits, and if a grid has a point there, then one of the double's two
neighbours on the grid lies there.  So it is enough to walk from a grid that is too coarse to finer
ones and to try two points of each.
-/

namespace Barogrid

/-- The number `digits · 10 ^ exponent`. -/
structure Decimal where
  /-- The digits, read as a whole number. -/
  digits : Nat
  /-- The power of ten of the last digit. -/
  exponent : Int
deriving DecidableEq, Repr

namespace Binary64

/-! ## 1. The interval of a double -/

/-- The reals that round to a positive double, in quarters of its last place. -/
structure Basin where
  /-- The lower end. -/
  low : Nat
  /-- The double itself. -/
  middle : Nat
  /-- The upper end. -/
  high : Nat
  /-- Do the ends round to the double as well? -/
  closed : Bool
  /-- The power of two that a quarter of the last place is. -/
  exponent : Int

/-- The interval around a positive double.  Below a power of two the doubles lie twice as dense. -/
def basin (x : Binary64) : Basin :=
  let m := x.significand
  let gap := if m = leadingBit ∧ 0 < x.scale then 1 else 2
  ⟨4 * m - gap, 4 * m, 4 * m + 2, m % 2 == 0, (x.scale : Int) - oneScale - 2⟩

/-- Which of two equally near decimals is taken. -/
inductive Tie where
  | up
  | even
deriving DecidableEq, Repr

/-! ## 2. The search -/

/-- The point of the grid of `10 ^ k` in the interval that is nearest to the middle, divided by
`10 ^ k`. -/
def Basin.gridPoint? (b : Basin) (tie : Tie) (k : Int) : Option Nat :=
  let n := Nat.pow 10 (-k).toNat <<< b.exponent.toNat
  let d := Nat.pow 10 k.toNat <<< (-b.exponent).toNat
  let q := b.middle * n / d
  let below := if b.closed then b.low * n ≤ q * d else b.low * n < q * d
  let above := if b.closed then (q + 1) * d ≤ b.high * n else (q + 1) * d < b.high * n
  let toBelow := b.middle * n - q * d
  let toAbove := (q + 1) * d - b.middle * n
  if below ∧ above then
    if toBelow < toAbove then some q
    else if toAbove < toBelow then some (q + 1)
    else match tie with
      | .up => some (q + 1)
      | .even => some (q + q % 2)
  else if below then some q
  else if above then some (q + 1)
  else none

/-- The first grid with a point, from `10 ^ k` on to finer ones. -/
def Basin.search (b : Basin) (tie : Tie) : Nat → Int → Decimal
  | 0, k => ⟨(b.gridPoint? tie k).getD 0, k⟩
  | steps + 1, k =>
    match b.gridPoint? tie k with
    | some q => ⟨q, k⟩
    | none => b.search tie steps (k - 1)

/-- A power of ten above the interval: ten to the returned exponent exceeds its upper end. -/
def Basin.coarsest (b : Basin) : Int :=
  (((b.high.log2 : Int) + 1 + b.exponent) * 30103).fdiv 100000 + 1

/-- **The shortest decimal that rounds to `x`,** for a positive finite `x`.  Seventeen digits always
suffice. -/
def shortest (x : Binary64) (tie : Tie) : Decimal :=
  x.basin.search tie 22 x.basin.coarsest

end Binary64

end Barogrid
