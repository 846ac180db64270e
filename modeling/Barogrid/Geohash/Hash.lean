import Barogrid.Geohash.Bounds
import Barogrid.Decimal.Notation

/-!
# Geohashes

A geohash names a cell of the globe by the answers to a row of questions "upper half or lower
half?", longitude first and the axes in turn, five answers to a digit.

* `encode` asks the questions about a place; a place on a dividing line belongs to the lower half.
* `Hash.bounds` follows the answers back to the cell.

A `Hash` is any non-empty list of digits.  Only hashes of up to twelve digits can be asked for, but
any hash can be followed.
-/

namespace Barogrid.Geohash

/-! ## 1. Digits -/

/-- One digit: five answers. -/
abbrev Digit := Fin 32

/-- The digits as they are written; `a`, `i`, `l` and `o` are left out. -/
def alphabet : List Char := "0123456789bcdefghjkmnpqrstuvwxyz".toList

/-- The character of a digit. -/
def Digit.toChar (d : Digit) : Char := alphabet.getD d.val '0'

/-- The digit of a character. -/
def Digit.ofChar? (c : Char) : Option Digit := alphabet.finIdxOf? c |>.map fun i => i.cast (by decide)

/-- The five answers of a digit; `true` stands for the upper half. -/
def Digit.answers (d : Digit) : List Bool := [16, 8, 4, 2, 1].map fun w => d.val / w % 2 == 1

/-- The digit of (the first five of) a list of answers. -/
def Digit.ofAnswers (as : List Bool) : Digit :=
  Fin.ofNat 32 ((as.take 5).foldl (fun n a => 2 * n + a.toNat) 0)

/-! ## 2. What can go wrong -/

/-- The greatest length that can be asked for. -/
def maxLength : Nat := 12

/-- Why there is no hash, or no cell of a hash. -/
inductive Fault where
  /-- The length asked for is zero or too great. -/
  | length (n : Nat)
  | emptyHash
  /-- The text holds a character that is no digit; `c` is the first. -/
  | badCharacter (text : String) (c : Char)
  | place (p : Place)

/-- The text of a fault. -/
def Fault.message : Fault → String
  | .length n => s!"Invalid geohash precision: {n} (expected 1-12)"
  | .emptyHash => "Invalid geohash '': hash is empty"
  | .badCharacter text c =>
    s!"Invalid geohash '{text}': character '{c}' is not in the geohash alphabet"
  | .place p => s!"Invalid coordinate: lat={p.latitude.plain}, lon={p.longitude.plain}"

/-! ## 3. Hashes -/

/-- A geohash. -/
structure Hash where
  digits : List Digit
  nonempty : digits ≠ []
deriving DecidableEq

namespace Hash

/-- The number of digits. -/
def length (h : Hash) : Nat := h.digits.length

/-- The hash as it is written. -/
def text (h : Hash) : String := String.ofList (h.digits.map Digit.toChar)

/-- Hashes are ordered like words; this is also the order of their texts. -/
instance : Ord Hash := ⟨fun a b => compare a.digits b.digits⟩

instance : Std.TransOrd Hash where
  eq_swap {a b} := Std.OrientedOrd.eq_swap (a := a.digits) (b := b.digits)
  isLE_trans {a b c} := Std.TransCmp.isLE_trans (a := a.digits) (b := b.digits) (c := c.digits)

instance : Std.LawfulEqOrd Hash where
  eq_of_compare {a b} h := by
    have : a.digits = b.digits := Std.LawfulEqOrd.eq_of_compare h
    cases a
    cases b
    simp_all

/-- The digits of a text, or its first character that is none. -/
def readDigits : List Char → Except Char (List Digit)
  | [] => .ok []
  | c :: cs =>
    match Digit.ofChar? c with
    | none => .error c
    | some d => (readDigits cs).map (d :: ·)

/-- The hash that a text denotes. -/
def parse (s : String) : Except Fault Hash :=
  match readDigits s.toList with
  | .error c => .error (.badCharacter s c)
  | .ok [] => .error .emptyHash
  | .ok (d :: ds) => .ok ⟨d :: ds, List.cons_ne_nil d ds⟩

/-- All answers, in the order of the questions. -/
def answers (h : Hash) : List Bool := h.digits.flatMap Digit.answers

end Hash

/-! ## 4. From answers to bounds -/

/-- The cell that answers lead to, from bounds that are halved along `axis` first. -/
def follow : List Bool → Axis → Bounds → Bounds
  | [], _, b => b
  | a :: as, axis, b => follow as axis.other (b.half axis a)

/-- The cell of a hash. -/
def Hash.bounds (h : Hash) : Bounds := follow h.answers .longitude .world

/-- The cell of a hash given as text. -/
def decode (s : String) : Except Fault Bounds := (Hash.parse s).map Hash.bounds

/-! ## 5. From places to answers -/

/-- The first `n` answers about a place, within bounds that are halved along `axis` first. -/
def ask (p : Place) : Nat → Axis → Bounds → List Bool
  | 0, _, _ => []
  | n + 1, axis, b =>
    let upper : Bool := (b.along axis).mid < p.along axis
    upper :: ask p n axis.other (b.half axis upper)

/-- Answers by the digit. -/
def toDigits : Nat → List Bool → List Digit
  | 0, _ => []
  | n + 1, as => Digit.ofAnswers as :: toDigits n (as.drop 5)

/-- The cell of a place, as a hash of the given length. -/
def encode (p : Place) (length : Nat) : Except Fault Hash :=
  match length with
  | 0 => .error (.length 0)
  | n + 1 =>
    if maxLength < n + 1 then .error (.length (n + 1))
    else if !p.onGlobe then .error (.place p)
    else .ok ⟨toDigits (n + 1) (ask p (5 * (n + 1)) .longitude .world), List.cons_ne_nil _ _⟩

end Barogrid.Geohash
