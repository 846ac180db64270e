import Barogrid.Decimal.Shortest

/-!
# How a double is written

Two notations, both of the shortest digits that read back:

* in messages (`Binary64.plain`) a number is always written out, without exponent and without a
  point where it is whole;
* in documents (`Binary64.documented`) there is always a point or an exponent, and numbers from
  1e+16 up and below 1e-5 get an exponent, which always has a sign.
-/

namespace Barogrid

namespace Decimal

/-- The digits of a number. -/
def digitText (n : Nat) : String := String.ofList (Nat.toDigits 10 n)

/-- A number of zeros. -/
def zeros (n : Nat) : String := String.ofList (List.replicate n '0')

/-- `text` with a point before its last `n` characters, and zeros in front where it is too short. -/
def pointed (text : String) (n : Nat) : String :=
  if n < text.length then
    String.ofList (text.toList.take (text.length - n)) ++ "." ++
      String.ofList (text.toList.drop (text.length - n))
  else "0." ++ zeros (n - text.length) ++ text

/-- Written out, without exponent. -/
def plain (d : Decimal) : String :=
  if 0 ≤ d.exponent then digitText d.digits ++ zeros d.exponent.toNat
  else pointed (digitText d.digits) (-d.exponent).toNat

/-- Written out between 1e-5 and 1e+16, with a signed exponent elsewhere. -/
def documented (d : Decimal) : String :=
  let text := digitText d.digits
  let top : Int := text.length + d.exponent
  if 0 ≤ d.exponent ∧ top ≤ 16 then text ++ zeros d.exponent.toNat ++ ".0"
  else if -5 < top ∧ top ≤ 16 then pointed text (-d.exponent).toNat
  else
    let mantissa := if text.length = 1 then text else pointed text (text.length - 1)
    mantissa ++ (if 0 < top then "e+" else "e") ++ toString (top - 1)

end Decimal

namespace Binary64

/-- The sign, as it is written. -/
def signText (x : Binary64) : String := if x.negative then "-" else ""

/-- A double in a message: `-0`, `0.1`, `1000000000000000000000`, `NaN`, `inf`. -/
def plain (x : Binary64) : String :=
  if x.isNaN then "NaN"
  else if x.isInfinite then x.signText ++ "inf"
  else if x.isZero then x.signText ++ "0"
  else x.signText ++ (x.shortest .up).plain

/-- A finite double in a document: `-0.0`, `0.1`, `1e+21`, `1e-7`. -/
def documented (x : Binary64) : String :=
  if x.isZero then x.signText ++ "0.0" else x.signText ++ (x.shortest .even).documented

end Binary64

end Barogrid
