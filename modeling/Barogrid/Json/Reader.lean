import Barogrid.Binary64.Arithmetic
import Barogrid.Json.Token

/-!
# Reading JSON

`parse?` builds a document from its tokens on a stack of open arrays and objects, so that there is
no limit to nesting.

The rest of this file says what a part of a document stands for:

* a string stands for a text unless half of a surrogate pair is missing (`text?`);
* a number stands for a double by way of its first digits, as many as fit in 64 bits, and a power of
  ten, each step rounded; what becomes infinite stands for nothing (`double?`);
* a number without point and exponent stands for an integer, except for the negative zero
  (`integer?`);
* a record is an object that has each field once, under one of its names, or an array of exactly the
  fields; what else an object holds is passed over (`record?`).
-/

namespace Barogrid.Json

/-! ## 1. Documents -/

/-- An array or object that is still open. -/
inductive Frame where
  /-- An array, its items so far in reverse. -/
  | array (items : List Json)
  /-- An object, its members so far in reverse, and the key whose value is under way. -/
  | object (members : List (String × Json)) (key : String)

/-- What may come next. -/
inductive Expectation where
  | value
  /-- A value or the end of an array. -/
  | firstItem
  /-- A key or the end of an object. -/
  | firstKey
  | key
  | colon
  /-- A comma, or the end of what is open. -/
  | next
  | nothing (document : Json)

/-- A document under construction. -/
structure Building where
  /-- What is open, the innermost first. -/
  stack : List Frame
  expected : Expectation

namespace Building

/-- A finished value, put into what is open. -/
def put (value : Json) : List Frame → Building
  | [] => ⟨[], .nothing value⟩
  | .array items :: rest => ⟨.array (value :: items) :: rest, .next⟩
  | .object members key :: rest => ⟨.object ((key, value) :: members) key :: rest, .next⟩

/-- The start of a value. -/
def openValue (stack : List Frame) : Token → Option Building
  | .scalar value => some (put value stack)
  | .openArray => some ⟨.array [] :: stack, .firstItem⟩
  | .openObject => some ⟨.object [] "" :: stack, .firstKey⟩
  | _ => none

/-- The end of the innermost array or object. -/
def close : List Frame → Token → Option Building
  | .array items :: rest, .closeArray => some (put (.array items.reverse) rest)
  | .object members _ :: rest, .closeObject => some (put (.object members.reverse) rest)
  | _, _ => none

/-- A key. -/
def takeKey : List Frame → Token → Option Building
  | .object members _ :: rest, .scalar (.string lexeme) =>
    some ⟨.object members lexeme :: rest, .colon⟩
  | _, _ => none

/-- A comma or the end of what is open. -/
def continueWith : List Frame → Token → Option Building
  | .array items :: rest, .comma => some ⟨.array items :: rest, .value⟩
  | .object members key :: rest, .comma => some ⟨.object members key :: rest, .key⟩
  | stack, t => close stack t

/-- One more token. -/
def step (b : Building) (t : Token) : Option Building :=
  match b.expected with
  | .value => openValue b.stack t
  | .firstItem => (close b.stack t).or (openValue b.stack t)
  | .firstKey => (close b.stack t).or (takeKey b.stack t)
  | .key => takeKey b.stack t
  | .colon =>
    match t with
    | .colon => some ⟨b.stack, .value⟩
    | _ => none
  | .next => continueWith b.stack t
  | .nothing _ => none

end Building

/-- The document that a text is. -/
def parse? (s : String) : Option Json := do
  let tokens ← tokens? s.toList
  let built ← tokens.foldlM Building.step ⟨[], .value⟩
  match built.expected with
  | .nothing document => some document
  | _ => none

/-! ## 2. Texts -/

/-- The number of four hexadecimal digits. -/
def hexNumber (a b c d : Char) : Nat := Decimal.ofDigits 16 [a, b, c, d]

/-- The character of an escape of one letter. -/
def escaped (c : Char) : Char :=
  match c with
  | 'b' => Char.ofNat 8
  | 'f' => Char.ofNat 12
  | 'n' => '\n'
  | 'r' => '\r'
  | 't' => '\t'
  | c => c

/-- Is this the first half of a surrogate pair? -/
def isHighSurrogate (n : Nat) : Bool := 0xd800 ≤ n && n < 0xdc00

/-- Is this the second half of a surrogate pair? -/
def isLowSurrogate (n : Nat) : Bool := 0xdc00 ≤ n && n < 0xe000

/-- The character of a surrogate pair. -/
def pairChar (high low : Nat) : Char := Char.ofNat (0x10000 + (high - 0xd800) * 0x400 + (low - 0xdc00))

/-- The characters that a string lexeme stands for. -/
def unescape? : List Char → Option (List Char)
  | [] => some []
  | '\\' :: 'u' :: a :: b :: c :: d :: '\\' :: 'u' :: e :: f :: g :: h :: r =>
    let n := hexNumber a b c d
    let m := hexNumber e f g h
    if isHighSurrogate n then
      if isLowSurrogate m then (unescape? r).map (pairChar n m :: ·) else none
    else if isLowSurrogate n then none
    else (unescape? ('\\' :: 'u' :: e :: f :: g :: h :: r)).map (Char.ofNat n :: ·)
  | '\\' :: 'u' :: a :: b :: c :: d :: r =>
    let n := hexNumber a b c d
    if isHighSurrogate n || isLowSurrogate n then none
    else (unescape? r).map (Char.ofNat n :: ·)
  | '\\' :: c :: r => (unescape? r).map (escaped c :: ·)
  | c :: r => (unescape? r).map (c :: ·)

/-- The text that a string lexeme stands for. -/
def textOf? (lexeme : String) : Option String := (unescape? lexeme.toList).map String.ofList

/-- The text that a document is. -/
def text? : Json → Option String
  | .string lexeme => textOf? lexeme
  | _ => none

/-! ## 3. Numbers -/

/-- The first digits of a number as far as they fit in 64 bits, and the number of further ones. -/
structure Leading where
  /-- The digits that fit, as a number. -/
  value : Nat
  /-- How many do not. -/
  dropped : Nat

/-- One more digit of the whole part; once a digit does not fit, no later one is taken. -/
def Leading.push (l : Leading) (c : Char) : Leading :=
  let n := 10 * l.value + Decimal.digitValue c
  if l.dropped = 0 ∧ n ≤ Binary64.largestWord then ⟨n, 0⟩ else ⟨l.value, l.dropped + 1⟩

/-- The digits of a fraction appended to a number as long as they fit, and how many were. -/
def appendFraction : List Char → Nat → Nat → Nat × Nat
  | [], n, taken => (n, taken)
  | c :: cs, n, taken =>
    let m := 10 * n + Decimal.digitValue c
    if m ≤ Binary64.largestWord then appendFraction cs m (taken + 1) else (n, taken)

/-- A power of ten, as the double nearest to it. -/
def powerOfTen (k : Nat) : Binary64 := .ofDecimal false 1 k

/-- `x · 10 ^ e` in rounded steps, unless it becomes infinite.  A great negative exponent is worked
off 308 at a time. -/
def scaleByTen (x : Binary64) (e : Int) : Option Binary64 :=
  if e.natAbs ≤ 308 then
    if 0 ≤ e then
      let y := x * powerOfTen e.natAbs
      if y.isInfinite then none else some y
    else some (x / powerOfTen e.natAbs)
  else if x.isZero then some x
  else if 0 ≤ e then none
  else scaleByTen (x / powerOfTen 308) (e + 308)
termination_by e.natAbs
decreasing_by omega

/-- The parts of a number lexeme. -/
structure NumberParts where
  negative : Bool
  /-- The digits before the point. -/
  whole : List Char
  /-- The digits after the point, if there is one. -/
  fraction : List Char
  exponent : Int
  /-- Is there neither point nor exponent? -/
  isWhole : Bool

/-- The parts of a number lexeme. -/
def partsOf (cs : List Char) : NumberParts :=
  let (negative, cs) := match cs with
    | '-' :: r => (true, r)
    | r => (false, r)
  let (whole, tail) := Decimal.splitDigits cs
  let (fraction, r) := match tail with
    | '.' :: r => Decimal.splitDigits r
    | r => ([], r)
  ⟨negative, whole, fraction, (Decimal.readExponent? r).getD 0, tail.isEmpty⟩

/-- The double that a number lexeme stands for. -/
def doubleOf? (cs : List Char) : Option Binary64 :=
  let p := partsOf cs
  let leading := p.whole.foldl Leading.push ⟨0, 0⟩
  let (n, taken) := appendFraction p.fraction leading.value 0
  (scaleByTen (.ofNat n) (leading.dropped - taken + p.exponent)).map fun x =>
    if p.negative then -x else x

/-- The double that a document is. -/
def double? : Json → Option Binary64
  | .number lexeme => doubleOf? lexeme.toList
  | _ => none

/-- The integer that a number lexeme stands for. -/
def integerOf? (cs : List Char) : Option Int :=
  let p := partsOf cs
  let n := Decimal.ofDigits 10 p.whole
  if !p.isWhole || (p.negative && n == 0) then none
  else some (if p.negative then -(n : Int) else n)

/-- The integer of a range that a document is. -/
def integer? (range : IntegerRange) : Json → Option Int
  | .number lexeme => (integerOf? lexeme.toList).filter range.contains
  | _ => none

/-! ## 4. Records -/

/-- The place in a list of fields, each with its names, of the field that a key names. -/
def fieldIndex? (fields : List (List String)) (key : String) : Option Nat :=
  fields.findIdx? fun names => names.contains key

/-- The values of the fields from the members of an object; none may be there twice. -/
def collect (fields : List (List String)) :
    List (String × Json) → List (Option Json) → Option (List (Option Json))
  | [], found => some found
  | (lexeme, value) :: ms, found =>
    match textOf? lexeme with
    | none => none
    | some key =>
      match fieldIndex? fields key with
      | none => collect fields ms found
      | some i =>
        if (found.getD i none).isSome then none else collect fields ms (found.set i (some value))

/-- The values of the fields of a record, in order. -/
def record? (fields : List (List String)) : Json → Option (List Json)
  | .array items => if items.length = fields.length then some items else none
  | .object members => do
    let found ← collect fields members (fields.map fun _ => none)
    found.mapM id
  | _ => none

end Barogrid.Json
