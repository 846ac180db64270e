/-!
# Blanks and fields

The blank characters are those with the Unicode property White_Space.  `trim` takes them off both
ends of a text, and `fields` cuts a text at a separator.
-/

namespace Barogrid.Text

/-! ## 1. Blanks -/

/-- Has `c` the property White_Space? -/
def isBlank (c : Char) : Bool :=
  let n := c.toNat
  (9 ≤ n && n ≤ 13) || n == 0x20 || n == 0x85 || n == 0xa0 || n == 0x1680 ||
    (0x2000 ≤ n && n ≤ 0x200a) || n == 0x2028 || n == 0x2029 || n == 0x202f || n == 0x205f ||
    n == 0x3000

/-- What is white space to the core library is blank. -/
theorem isBlank_of_isWhitespace {c : Char} (h : c.isWhitespace = true) : isBlank c = true := by
  simp only [Char.isWhitespace, Bool.or_eq_true, decide_eq_true_eq] at h
  rcases h with ((h | h) | h) | h <;> subst h <;> decide

/-- A text without the blanks at its ends. -/
def trimChars (cs : List Char) : List Char :=
  ((cs.dropWhile isBlank).reverse.dropWhile isBlank).reverse

/-- A text without the blanks at its ends. -/
def trim (s : String) : String := String.ofList (trimChars s.toList)

/-! ## 2. Fields -/

/-- The pieces of a text between the occurrences of a separator. -/
def fieldsOf (separator : Char) : List Char → List (List Char)
  | [] => [[]]
  | c :: cs =>
    match fieldsOf separator cs with
    | [] => [[c]]
    | first :: others =>
      if c = separator then [] :: first :: others else (c :: first) :: others

/-- The pieces of a text between the occurrences of a separator. -/
def fields (separator : Char) (s : String) : List String :=
  (fieldsOf separator s.toList).map String.ofList

end Barogrid.Text
