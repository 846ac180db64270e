import Barogrid.Decimal.Reader
import Barogrid.Json

/-!
# JSON tokens

A text is cut into tokens in one walk over its characters.  Strings and numbers are taken over as
they are written, once their form is right: every escape of a string must be a known one and no
control character may stand in it, and a number has no superfluous zero in front and a digit on both
sides of its point and after its exponent mark.
-/

namespace Barogrid.Json

/-- A token. -/
inductive Token where
  | openObject
  | closeObject
  | openArray
  | closeArray
  | colon
  | comma
  /-- A value without parts. -/
  | scalar (value : Json)

/-! ## 1. Forms -/

/-- What may follow the whole part of a number: an exponent and nothing else. -/
def isExponentForm : List Char → Bool
  | [] => true
  | mark :: cs =>
    (mark == 'e' || mark == 'E') &&
      let ds := match cs with
        | '+' :: r => r
        | '-' :: r => r
        | r => r
      !ds.isEmpty && ds.all Char.isDigit

/-- Is this the form of a number? -/
def isNumberForm (cs : List Char) : Bool :=
  let cs := match cs with
    | '-' :: r => r
    | r => r
  let (whole, r) := Decimal.splitDigits cs
  let wholeFits := match whole with
    | [] => false
    | ['0'] => true
    | d :: _ => d != '0'
  let tailFits := match r with
    | '.' :: r =>
      let (fraction, r) := Decimal.splitDigits r
      !fraction.isEmpty && isExponentForm r
    | r => isExponentForm r
  wholeFits && tailFits

/-- Is `c` a hexadecimal digit? -/
def isHexDigit (c : Char) : Bool := c.isDigit || ('a' ≤ c && c ≤ 'f') || ('A' ≤ c && c ≤ 'F')

/-- May this character follow a backslash, other than `u`? -/
def isEscapeMark (c : Char) : Bool := "\"\\/bfnrt".toList.contains c

/-- The value of a word. -/
def ofWord? : List Char → Option Json
  | ['n', 'u', 'l', 'l'] => some .null
  | ['t', 'r', 'u', 'e'] => some (.bool true)
  | ['f', 'a', 'l', 's', 'e'] => some (.bool false)
  | _ => none

/-! ## 2. The walk -/

/-- Where the walk stands. -/
inductive Lexing where
  | between
  /-- In a number, its characters so far in reverse. -/
  | inNumber (taken : List Char)
  /-- In a word, its characters so far in reverse. -/
  | inWord (taken : List Char)
  /-- In a string, its characters so far in reverse. -/
  | inString (taken : List Char)
  /-- In a string, after a backslash. -/
  | inEscape (taken : List Char)
  /-- In a string, with this many hexadecimal digits of an escape to come. -/
  | inHex (left : Nat) (taken : List Char)

/-- Is `c` a blank between tokens? -/
def isGap (c : Char) : Bool := c == ' ' || c == '\n' || c == '\t' || c == '\r'

/-- Can `c` stand in a number? -/
def isNumberChar (c : Char) : Bool := c.isDigit || "+-.eE".toList.contains c

/-- The walk after a character between tokens, and the token that the character is. -/
def start (c : Char) : Option (Lexing × List Token) :=
  if isGap c then some (.between, [])
  else if c == '\x7b' then some (.between, [.openObject])
  else if c == '\x7d' then some (.between, [.closeObject])
  else if c == '[' then some (.between, [.openArray])
  else if c == ']' then some (.between, [.closeArray])
  else if c == ':' then some (.between, [.colon])
  else if c == ',' then some (.between, [.comma])
  else if c == '"' then some (.inString [], [])
  else if c.isDigit || c == '-' then some (.inNumber [c], [])
  else if c.isLower then some (.inWord [c], [])
  else none

/-- The token of a finished number. -/
def endNumber (taken : List Char) : Option Token :=
  let cs := taken.reverse
  if isNumberForm cs then some (.scalar (.number (String.ofList cs))) else none

/-- The token of a finished word. -/
def endWord (taken : List Char) : Option Token := (ofWord? taken.reverse).map .scalar

/-- The walk after one more character, and the tokens finished by it. -/
def advance : Lexing → Char → Option (Lexing × List Token)
  | .between, c => start c
  | .inNumber taken, c =>
    if isNumberChar c then some (.inNumber (c :: taken), [])
    else do
      let t ← endNumber taken
      let (l, ts) ← start c
      return (l, t :: ts)
  | .inWord taken, c =>
    if c.isLower then some (.inWord (c :: taken), [])
    else do
      let t ← endWord taken
      let (l, ts) ← start c
      return (l, t :: ts)
  | .inString taken, c =>
    if c == '"' then some (.between, [.scalar (.string (String.ofList taken.reverse))])
    else if c == '\\' then some (.inEscape (c :: taken), [])
    else if c.toNat < 32 then none
    else some (.inString (c :: taken), [])
  | .inEscape taken, c =>
    if c == 'u' then some (.inHex 4 (c :: taken), [])
    else if isEscapeMark c then some (.inString (c :: taken), [])
    else none
  | .inHex left taken, c =>
    if !isHexDigit c then none
    else if left ≤ 1 then some (.inString (c :: taken), [])
    else some (.inHex (left - 1) (c :: taken), [])

/-- The tokens that the end of the text finishes. -/
def finish : Lexing → Option (List Token)
  | .between => some []
  | .inNumber taken => (endNumber taken).map fun t => [t]
  | .inWord taken => (endWord taken).map fun t => [t]
  | _ => none

/-- The tokens of the rest of a text, after those in `found`, which are in reverse. -/
def tokensFrom : List Char → Lexing → List Token → Option (List Token)
  | [], l, found => (finish l).map fun ts => (ts.reverse ++ found).reverse
  | c :: cs, l, found =>
    match advance l c with
    | none => none
    | some (l, ts) => tokensFrom cs l (ts.reverse ++ found)

/-- The tokens of a text. -/
def tokens? (cs : List Char) : Option (List Token) := tokensFrom cs .between []

end Barogrid.Json
