/-!
# Places in a YAML text

The character classes of YAML 1.1 and a cursor that knows its line and column.  A line may end in a
line feed, a carriage return, both, a next-line character, or one of the two Unicode separators; all
but the separators count as a line feed in the value of a scalar.
-/

namespace Barogrid.Yaml

/-! ## 1. Characters -/

/-- May the character stand in a document? -/
def isAllowed (c : Char) : Bool :=
  let n := c.toNat
  n == 9 || n == 10 || n == 13 || (0x20 ≤ n && n ≤ 0x7e) || n == 0x85 ||
    (0xa0 ≤ n && n ≤ 0xd7ff) || (0xe000 ≤ n && n ≤ 0xfffd) || 0x10000 ≤ n

/-- A blank or a tab. -/
def isGap (c : Char) : Bool := c == ' ' || c == '\t'

/-- An end of line. -/
def isBreak (c : Char) : Bool :=
  c == '\n' || c == '\r' || c.toNat == 0x85 || c.toNat == 0x2028 || c.toNat == 0x2029

/-- A blank, a tab or an end of line. -/
def isSpace (c : Char) : Bool := isGap c || isBreak c

/-- May the character stand in a name? -/
def isNameChar (c : Char) : Bool := c.isAlphanum || c == '_' || c == '-'

/-- Does the text end here, or go on with a blank, a tab or an end of line? -/
def endsWord : List Char → Bool
  | [] => true
  | c :: _ => isSpace c

/-- Does the text end here, or go on with an end of line? -/
def endsLine : List Char → Bool
  | [] => true
  | c :: _ => isBreak c

/-- What an end of line stands for in a scalar. -/
def breakChar (c : Char) : Char := if c.toNat == 0x2028 || c.toNat == 0x2029 then c else '\n'

/-! ## 2. The cursor -/

/-- A place in a text. -/
structure Cursor where
  rest : List Char
  /-- The number of bytes before, in UTF-8. -/
  offset : Nat := 0
  /-- The number of lines before. -/
  line : Nat := 0
  /-- The number of characters before on the line. -/
  column : Nat := 0

namespace Cursor

/-- The cursor some characters further on the line. -/
def skip (c : Cursor) (n : Nat) : Cursor :=
  { c with
    rest := c.rest.drop n
    offset := (c.rest.take n).foldl (fun bytes x => bytes + x.utf8Size) c.offset
    column := c.column + n }

/-- The cursor after the end of line that it stands at. -/
def skipBreak (c : Cursor) : Cursor :=
  match c.rest with
  | '\r' :: '\n' :: r => ⟨r, c.offset + 2, c.line + 1, 0⟩
  | x :: r => ⟨r, c.offset + x.utf8Size, c.line + 1, 0⟩
  | [] => c

/-- The characters at the front with a property, none of which may be an end of line, and the cursor
after them. -/
def takeWhile (c : Cursor) (p : Char → Bool) : List Char × Cursor :=
  let taken := c.rest.takeWhile p
  (taken, c.skip taken.length)

/-- The cursor after a byte order mark, if the line begins with one.  The mark takes up a column. -/
def skipMark (c : Cursor) : Cursor :=
  if c.column = 0 && c.rest.head?.any fun x => x.toNat = 0xfeff then c.skip 1 else c

/-- The cursor after the characters with a property, none of which may be an end of line. -/
def skipWhile (c : Cursor) (p : Char → Bool) : Cursor := (c.takeWhile p).2

/-- Does the text go on with these characters? -/
def startsWith (c : Cursor) (s : String) : Bool := s.toList.isPrefixOf c.rest

/-- Does a line start here that separates documents? -/
def atDocumentMark (c : Cursor) : Bool :=
  c.column == 0 && (c.startsWith "---" || c.startsWith "...") && endsWord (c.rest.drop 3)

/-- The cursor after blanks and a comment, which must reach to the end of the line, and after this
end. -/
def finishLine? (c : Cursor) : Option Cursor :=
  let c := c.skipWhile isGap
  let c := if c.startsWith "#" then c.skipWhile fun x => !isBreak x else c
  if endsLine c.rest then some c.skipBreak else none

end Cursor

end Barogrid.Yaml
