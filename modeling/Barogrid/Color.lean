import Barogrid.Binary64.Arithmetic
import Barogrid.Decimal.Reader
import Barogrid.Failure
import Barogrid.Text.Blank

/-!
# Colors

A color is three channels of eight bits.  It is written `#rrggbb`, and read with or without the
number sign, in six digits or in three.
-/

namespace Barogrid

/-- A color. -/
structure Color where
  red : UInt8
  green : UInt8
  blue : UInt8
deriving DecidableEq, Repr

namespace Color

/-! ## 1. Writing -/

/-- A hexadecimal digit. -/
def hexDigit (n : Nat) : Char := Nat.digitChar n

/-- A channel in two digits. -/
def channelText (c : UInt8) : List Char := [hexDigit (c.toNat / 16), hexDigit (c.toNat % 16)]

/-- The color as `#rrggbb`. -/
def hex (c : Color) : String :=
  String.ofList ('#' :: channelText c.red ++ channelText c.green ++ channelText c.blue)

/-! ## 2. Reading -/

/-- Is `c` a hexadecimal digit? -/
def isHexDigit (c : Char) : Bool := c.isDigit || ('a' ≤ c && c ≤ 'f') || ('A' ≤ c && c ≤ 'F')

/-- A channel of two characters.  A plus sign may stand for the first digit. -/
def readPair? (a b : Char) : Option UInt8 :=
  if !isHexDigit b then none
  else if a = '+' then some (UInt8.ofNat (Decimal.digitValue b))
  else if isHexDigit a then some (UInt8.ofNat (16 * Decimal.digitValue a + Decimal.digitValue b))
  else none

/-- A channel of one digit, which is doubled. -/
def readSingle? (a : Char) : Option UInt8 :=
  if isHexDigit a then some (UInt8.ofNat (17 * Decimal.digitValue a)) else none

/-- The digits of a color, without number signs. -/
def readChannels? : List Char → Option Color
  | [a, b, c, d, e, f] => do return ⟨← readPair? a b, ← readPair? c d, ← readPair? e f⟩
  | [a, b, c] => do return ⟨← readSingle? a, ← readSingle? b, ← readSingle? c⟩
  | _ => none

/-- A color without the blanks around it and the number signs in front. -/
def bareDigits (s : String) : List Char := (Text.trimChars s.toList).dropWhile (· = '#')

/-- The color that a text denotes. -/
def parse (s : String) : Except Failure Color :=
  match readChannels? (bareDigits s) with
  | some c => .ok c
  | none => .error (.color s)

/-- Is there nothing but blanks? -/
def isBlankText (s : String) : Bool := s.toList.all Text.isBlank

/-- Colors separated by commas; fields with nothing but blanks are skipped. -/
def parseList (s : String) : Except Failure (List Color) :=
  ((Text.fields ',' s).filter fun field => !isBlankText field).mapM parse

/-! ## 3. Mixing -/

/-- The channel at `t` on the way from `a` to `b`. -/
def mixChannel (a b : UInt8) (t : Binary64) : UInt8 :=
  let x := Binary64.ofNat a.toNat * (1 - t) + Binary64.ofNat b.toNat * t
  UInt8.ofNat (min x.roundNat 255)

/-- The color at `t` on the way from `a` to `b`, where 0 is `a` and 1 is `b`; before and beyond them
the way does not go on. -/
def mix (a b : Color) (t : Binary64) : Color :=
  let t := t.clamp 0 1
  ⟨mixChannel a.red b.red t, mixChannel a.green b.green t, mixChannel a.blue b.blue t⟩

end Color

end Barogrid
