import Barogrid.Binary64.Basic

/-!
# Rounding an exact value to the nearest double

An exact value is given as `n / d · 2 ^ e` units of 2 to the -1074.  `nearestMagnitude` finds the
magnitude of the double nearest to it, a tie going to the even last place.  All arithmetic on
doubles, and the reading of decimals, is exact arithmetic on numbers followed by this one rounding.

Why the bits come out right: let `s` be the scale on which the value has 53 digits (0 when it has
fewer).  Rounding to that scale gives `q ≤ 2 ^ 53`, and the magnitude is `s · 2 ^ 52 + q`: the
leading bit of `q` adds the one that the exponent field is ahead of the scale, a `q` without that
bit belongs to a subnormal double, and a `q` that was rounded up to `2 ^ 53` moves on to the next
exponent.
-/

namespace Barogrid

/-- `n / d` rounded to a whole number, a half going to the even one. -/
def halfEven (n d : Nat) : Nat :=
  let q := n / d
  let r := n % d
  if d < 2 * r ∨ (2 * r = d ∧ q % 2 = 1) then q + 1 else q

/-- The exponent `k` with `2 ^ k ≤ n / d < 2 ^ (k + 1)`, for positive `n` and `d`. -/
def floorLog2 (n d : Nat) : Int :=
  let k : Int := (n.log2 : Int) - d.log2
  if n <<< (-k).toNat < d <<< k.toNat then k - 1 else k

namespace Binary64

/-- The scale on which `n / d · 2 ^ e` units are rounded: 53 digits, as far as the units reach. -/
def roundingScale (n d : Nat) (e : Int) : Nat := (floorLog2 n d + e - 52).toNat

/-- The number of places of `2 ^ s` units nearest to `n / d · 2 ^ e` units. -/
def places (n d : Nat) (e : Int) (s : Nat) : Nat :=
  halfEven (n <<< (e - s).toNat) (d <<< (s - e).toNat)

/-- The magnitude of the double nearest to `n / d · 2 ^ e` units; a value that is too large gives
one of at least `infiniteMagnitude`. -/
def nearestMagnitude (n d : Nat) (e : Int) : Nat :=
  if n = 0 then 0
  else
    let s := roundingScale n d e
    s * leadingBit + places n d e s

/-- The double nearest to `n / d · 2 ^ e` units, with the given sign. -/
def nearest (negative : Bool) (n d : Nat) (e : Int) : Binary64 :=
  ofMagnitude negative (nearestMagnitude n d e)

/-- The exponent of the number one in units. -/
def oneScale : Nat := 1074

/-- The double nearest to a whole number. -/
def ofNat (n : Nat) : Binary64 := nearest false n 1 oneScale

/-- The double nearest to an integer. -/
def ofInt (i : Int) : Binary64 := nearest (i < 0) i.natAbs 1 oneScale

/-- The double nearest to `n / d`. -/
def ofRatio (negative : Bool) (n d : Nat) : Binary64 := nearest negative n d oneScale

/-- The double nearest to `digits · 10 ^ exponent`.  Far beyond both ends of the range the answer
needs no power of ten. -/
def ofDecimal (negative : Bool) (digits : Nat) (exponent : Int) : Binary64 :=
  let top := (digits.log2 : Int) / 4 + exponent
  if digits = 0 then zero negative
  else if 310 < top then infinity negative
  else if (digits.log2 : Int) + exponent < -400 then zero negative
  else ofRatio negative (digits * Nat.pow 10 exponent.toNat) (Nat.pow 10 (-exponent).toNat)

instance (n : Nat) : OfNat Binary64 n := ⟨ofNat n⟩

instance : OfScientific Binary64 :=
  ⟨fun digits down k => ofDecimal false digits (if down then -(k : Int) else k)⟩

end Binary64

end Barogrid
