import Barogrid.Binary64.Arithmetic
import Barogrid.IntegerRange

/-!
# Reading numbers

The grammar of numbers in settings, boxes and arguments.

* A double (`readDouble?`): an optional sign, then `inf`, `infinity` or `nan` in any mixture of
  cases, or digits with at most one point among them or at an end, and after them optionally an
  exponent.  At least one digit is needed.  What is read is the nearest double.
* A whole number (`readWord?`, `readInt32?`): an optional sign and digits, within a range.
-/

namespace Barogrid.Decimal

/-! ## 1. Digits -/

/-- The value of a digit in bases up to sixteen. -/
def digitValue (c : Char) : Nat :=
  if c.isDigit then c.toNat - 48
  else if 'a' ≤ c ∧ c ≤ 'f' then c.toNat - 87
  else c.toNat - 55

/-- The number that digits stand for. -/
def ofDigits (base : Nat) (cs : List Char) : Nat :=
  cs.foldl (fun n c => base * n + digitValue c) 0

/-- The digits at the front, and the rest. -/
def splitDigits (cs : List Char) : List Char × List Char :=
  (cs.takeWhile Char.isDigit, cs.dropWhile Char.isDigit)

/-! ## 2. Doubles -/

/-- An exponent that ends the text: a mark, an optional sign, digits.  No mark is the exponent 0. -/
def readExponent? : List Char → Option Int
  | [] => some 0
  | mark :: cs =>
    if mark ≠ 'e' ∧ mark ≠ 'E' then none
    else
      let (negative, ds) := match cs with
        | '-' :: r => (true, r)
        | '+' :: r => (false, r)
        | r => (false, r)
      if ds.isEmpty || !ds.all Char.isDigit then none
      else
        let n : Int := ofDigits 10 ds
        some (if negative then -n else n)

/-- A number without its sign. -/
def readMagnitude? (negative : Bool) (cs : List Char) : Option Binary64 :=
  let word := String.ofList (cs.map Char.toLower)
  if word = "inf" ∨ word = "infinity" then some (.infinity negative)
  else if word = "nan" then some (.nan negative)
  else
    let (whole, r) := splitDigits cs
    let (fraction, r) := match r with
      | '.' :: r => splitDigits r
      | r => ([], r)
    if whole.isEmpty && fraction.isEmpty then none
    else
      (readExponent? r).map fun e =>
        .ofDecimal negative (ofDigits 10 (whole ++ fraction)) (e - fraction.length)

/-- The double that a text denotes. -/
def readDouble? (s : String) : Option Binary64 :=
  match s.toList with
  | '-' :: cs => readMagnitude? true cs
  | '+' :: cs => readMagnitude? false cs
  | cs => readMagnitude? false cs

/-! ## 3. Whole numbers -/

/-- Digits of a base, and nothing else. -/
def readDigits? (base : Nat) (cs : List Char) : Option Nat :=
  let isDigit := fun (c : Char) =>
    if base = 16 then c.isDigit || ('a' ≤ c && c ≤ 'f') || ('A' ≤ c && c ≤ 'F')
    else c.isDigit && digitValue c < base
  if cs.isEmpty || !cs.all isDigit then none else some (ofDigits base cs)

/-- A number of 64 bits without sign; a plus sign is allowed. -/
def readWord? (s : String) : Option Nat :=
  let digits := match s.toList with
    | '+' :: cs => cs
    | cs => cs
  (readDigits? 10 digits).filter fun n => IntegerRange.word.contains n

/-- A number of 32 bits with sign; both signs are allowed. -/
def readInt32? (s : String) : Option Int :=
  let value? := match s.toList with
    | '-' :: cs => (readDigits? 10 cs).map fun n => -(n : Int)
    | '+' :: cs => (readDigits? 10 cs).map Int.ofNat
    | cs => (readDigits? 10 cs).map Int.ofNat
  value?.filter IntegerRange.int32.contains

end Barogrid.Decimal
