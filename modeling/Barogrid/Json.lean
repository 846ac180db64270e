import Barogrid.Decimal.Notation

/-!
# JSON documents

A document is kept as it is written: numbers and strings are their lexemes, and what a lexeme stands
for is decided where it is used.  So a document can be held that is well formed although one of its
numbers is too large for a double or one of its strings is no text.

There are two layouts, one without any blanks and one that is indented.
-/

namespace Barogrid

/-- A JSON document. -/
inductive Json where
  | null
  | bool (b : Bool)
  /-- A number, as written. -/
  | number (lexeme : String)
  /-- A string, as written between the quotes. -/
  | string (lexeme : String)
  | array (items : List Json)
  /-- An object; its keys are written like strings. -/
  | object (members : List (String × Json))

namespace Json

/-! ## 1. Lexemes -/

/-- A hexadecimal digit. -/
def hexDigit (n : Nat) : Char := Nat.digitChar n

/-- How a character is written in a string. -/
def escapeChar (c : Char) : List Char :=
  if c = '"' then ['\\', '"']
  else if c = '\\' then ['\\', '\\']
  else if c = '\n' then ['\\', 'n']
  else if c = '\r' then ['\\', 'r']
  else if c = '\t' then ['\\', 't']
  else if c.toNat = 8 then ['\\', 'b']
  else if c.toNat = 12 then ['\\', 'f']
  else if c.toNat < 32 then ['\\', 'u', '0', '0', hexDigit (c.toNat / 16), hexDigit (c.toNat % 16)]
  else [c]

/-- A text as a string lexeme. -/
def escape (s : String) : String := String.ofList (s.toList.flatMap escapeChar)

/-- A text. -/
def ofText (s : String) : Json := .string (escape s)

/-- A whole number. -/
def ofNat (n : Nat) : Json := .number (Decimal.digitText n)

/-- An integer. -/
def ofInt (i : Int) : Json :=
  .number ((if i < 0 then "-" else "") ++ Decimal.digitText i.natAbs)

/-- A double; `null` when it is not finite. -/
def ofDouble (x : Binary64) : Json := if x.isFinite then .number x.documented else .null

/-- An optional value; `null` when there is none. -/
def ofOption {α : Type} (f : α → Json) : Option α → Json
  | some a => f a
  | none => .null

/-- An object whose keys are texts. -/
def ofFields (fields : List (String × Json)) : Json :=
  .object (fields.map fun (key, value) => (escape key, value))

/-! ## 2. Layouts -/

/-- A lexeme between quotes. -/
def quoted (lexeme : String) : String := "\"" ++ lexeme ++ "\""

mutual

/-- Without blanks. -/
def compact : Json → String
  | .null => "null"
  | .bool b => if b then "true" else "false"
  | .number lexeme => lexeme
  | .string lexeme => quoted lexeme
  | .array items => "[" ++ String.intercalate "," (compactItems items) ++ "]"
  | .object members => "\x7b" ++ String.intercalate "," (compactMembers members) ++ "\x7d"

/-- The items of an array, each without blanks. -/
def compactItems : List Json → List String
  | [] => []
  | j :: js => j.compact :: compactItems js

/-- The members of an object, each without blanks. -/
def compactMembers : List (String × Json) → List String
  | [] => []
  | (key, j) :: ms => (quoted key ++ ":" ++ j.compact) :: compactMembers ms

end

/-- The start of a line at a depth of nesting. -/
def lineStart (depth : Nat) : String := "\n" ++ String.ofList (List.replicate (2 * depth) ' ')

/-- Lines between brackets, each at the given depth. -/
def bracketed (depth : Nat) (left right : String) (lines : List String) : String :=
  if lines.isEmpty then left ++ right
  else
    left ++ lineStart (depth + 1) ++ String.intercalate ("," ++ lineStart (depth + 1)) lines ++
      lineStart depth ++ right

mutual

/-- Indented by two blanks for each level, below the given depth. -/
def indented : Nat → Json → String
  | _, .null => "null"
  | _, .bool b => if b then "true" else "false"
  | _, .number lexeme => lexeme
  | _, .string lexeme => quoted lexeme
  | depth, .array items => bracketed depth "[" "]" (indentedItems (depth + 1) items)
  | depth, .object members =>
    bracketed depth "\x7b" "\x7d" (indentedMembers (depth + 1) members)

/-- The items of an array, each indented. -/
def indentedItems : Nat → List Json → List String
  | _, [] => []
  | depth, j :: js => indented depth j :: indentedItems depth js

/-- The members of an object, each indented. -/
def indentedMembers : Nat → List (String × Json) → List String
  | _, [] => []
  | depth, (key, j) :: ms =>
    (quoted key ++ ": " ++ indented depth j) :: indentedMembers depth ms

end

end Json

end Barogrid
