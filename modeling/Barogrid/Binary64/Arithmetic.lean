import Barogrid.Binary64.Rounding

/-!
# Arithmetic on doubles

Sum, difference, product and quotient are the exact result, rounded once; zeros, infinities and
NaNs are treated case by case as IEEE 754 lays down.  A NaN that arises here is positive.

This file fixes as well how a double becomes a whole number (`floorNat`, `roundNat`, both bounded
by the largest 64-bit number), how a list is summed (`sum`, from the left), the square root, and, as
a parameter, the exponential, the one function that is not computed exactly.
-/

namespace Barogrid

namespace Binary64

/-! ## 1. The four operations -/

/-- `x` with the other sign. -/
def neg (x : Binary64) : Binary64 := { x with negative := !x.negative }

/-- The size of a finite `x` in places of scale `e`, which is at most the scale of `x`. -/
def atScale (x : Binary64) (e : Nat) : Nat := x.significand <<< (x.scale - e)

/-- The sum. -/
def add (x y : Binary64) : Binary64 :=
  if x.isNaN || y.isNaN then nan false
  else if x.isInfinite then
    if y.isInfinite && x.negative != y.negative then nan false else x
  else if y.isInfinite then y
  else
    let e := min x.scale y.scale
    let m := x.atScale e
    let n := y.atScale e
    if x.negative = y.negative then nearest x.negative (m + n) 1 e
    else if m = n then zero false
    else if m < n then nearest y.negative (n - m) 1 e
    else nearest x.negative (m - n) 1 e

/-- The difference. -/
def sub (x y : Binary64) : Binary64 := x.add y.neg

/-- The product. -/
def mul (x y : Binary64) : Binary64 :=
  let negative := x.negative != y.negative
  if x.isNaN || y.isNaN then nan false
  else if x.isInfinite || y.isInfinite then
    if x.isZero || y.isZero then nan false else infinity negative
  else nearest negative (x.significand * y.significand) 1 (x.scale + y.scale - oneScale : Int)

/-- The quotient. -/
def div (x y : Binary64) : Binary64 :=
  let negative := x.negative != y.negative
  if x.isNaN || y.isNaN then nan false
  else if x.isInfinite then
    if y.isInfinite then nan false else infinity negative
  else if y.isInfinite then zero negative
  else if y.isZero then
    if x.isZero then nan false else infinity negative
  else nearest negative x.significand y.significand (x.scale - y.scale + oneScale : Int)

/-- Half of `x`, rounded only where the last place is the least there is. -/
def half (x : Binary64) : Binary64 :=
  if x.isNaN then nan false
  else if x.isInfinite then x
  else nearest x.negative x.significand 1 (x.scale - 1 : Int)

instance : Neg Binary64 := ⟨neg⟩
instance : Add Binary64 := ⟨add⟩
instance : Sub Binary64 := ⟨sub⟩
instance : Mul Binary64 := ⟨mul⟩
instance : Div Binary64 := ⟨div⟩

/-- The sum of a list, from the left.  It starts at the negative zero, which adding leaves every
double as it is. -/
def sum (xs : List Binary64) : Binary64 := xs.foldl (· + ·) (zero true)

/-! ## 2. Whole numbers -/

/-- The largest 64-bit number. -/
@[noinline]
def largestWord : Nat := 0xffffffffffffffff

/-- The value of a positive finite double, with `part` applied to its numerator and denominator. -/
def wholeBy (part : Nat → Nat → Nat) (x : Binary64) : Nat :=
  part (x.significand <<< (x.scale - oneScale)) (1 <<< (oneScale - x.scale))

/-- `x` as a whole number, by `part`: a NaN and what is negative give 0, and nothing exceeds the
largest 64-bit number. -/
def toWord (part : Nat → Nat → Nat) (x : Binary64) : Nat :=
  if x.isNaN || x.negative then 0
  else if x.isInfinite then largestWord
  else min (x.wholeBy part) largestWord

/-- `x` without its fraction. -/
def floorNat (x : Binary64) : Nat := x.toWord fun n d => n / d

/-- `x` rounded to the nearest whole number, a half going up. -/
def roundNat (x : Binary64) : Nat := x.toWord fun n d => (2 * n + d) / (2 * d)

/-! ## 3. Square root -/

/-- The greatest number below `r + 2 ^ bits` whose square is at most `n`, given that the square of
`r` is. -/
def rootFrom (n : Nat) : Nat → Nat → Nat
  | 0, r => r
  | bits + 1, r =>
    let s := r + 1 <<< bits
    rootFrom n bits (if s * s ≤ n then s else r)

/-- The square root without its fraction. -/
def wholeRoot (n : Nat) : Nat := rootFrom n (n.log2 / 2 + 1) 0

/-- The square root.  The root of the significand is taken to more than 64 binary places; one more
place says whether anything is left beyond them, which is all that the rounding needs. -/
def sqrt (x : Binary64) : Binary64 :=
  if x.isNaN || x.isZero then x
  else if x.negative then nan false
  else if x.isInfinite then x
  else
    let k := 128 + x.scale % 2
    let n := x.significand <<< k
    let r := wholeRoot n
    let rest := if r * r = n then 0 else 1
    nearest false (2 * r + rest) 1 (((x.scale : Int) - oneScale - k) / 2 + oneScale - 1)

/-! ## 4. Bits -/

/-- The 64 bits of `x` as a word. -/
def toBits (x : Binary64) : UInt64 :=
  UInt64.ofNat ((if x.negative then 0x8000000000000000 else 0) + x.magnitude)

/-- The double of a word. -/
def ofBits (w : UInt64) : Binary64 :=
  ⟨0x8000000000000000 ≤ w.toNat, w.toNat % 0x8000000000000000, Nat.mod_lt _ (by decide)⟩

end Binary64

/-- The exponential function of the platform.  Platforms differ in its last digit, so nothing that
is said about the program may hang on more than what is assumed of `exp`. -/
class Exponential where
  exp : Binary64 → Binary64

/-- The exponential as the hardware library computes it. -/
@[reducible]
def Exponential.hardware : Exponential :=
  ⟨fun x => Binary64.ofBits (Float.exp (Float.ofBits x.toBits)).toBits⟩

end Barogrid
