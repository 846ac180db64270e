import Barogrid.Decimal.Reader
import Barogrid.Yaml.Cursor

/-!
# YAML scalars

The three ways to write a scalar: plain, between quotes, and as a block of lines.  Each function here
starts where the scalar starts and yields its text and the place after it.

Within plain and quoted scalars an end of line stands for a blank, and further ends of line stand for
themselves.  Loops that cross lines are bounded by the number of characters that are left.
-/

namespace Barogrid.Yaml

/-! ## 1. Gaps -/

/-- Blanks and ends of line within a scalar. -/
structure Gap where
  /-- The blanks before the first end of line, in reverse. -/
  blanks : List Char := []
  /-- Was there an end of line? -/
  broken : Bool := false
  /-- What the first end of line stands for. -/
  firstBreak : Option Char := none
  /-- What the further ends of line stand for, in reverse. -/
  moreBreaks : List Char := []

/-- What a gap stands for. -/
def Gap.text (g : Gap) : List Char :=
  if !g.broken then g.blanks.reverse
  else match g.firstBreak with
    | some '\n' => if g.moreBreaks.isEmpty then [' '] else g.moreBreaks.reverse
    | some c => c :: g.moreBreaks.reverse
    | none => g.moreBreaks.reverse

/-- The gap with one more blank. -/
def Gap.addBlank (g : Gap) (c : Char) : Gap :=
  if g.broken then g else { g with blanks := c :: g.blanks }

/-- The gap with one more end of line. -/
def Gap.addBreak (g : Gap) (c : Char) : Gap :=
  if g.broken then { g with moreBreaks := breakChar c :: g.moreBreaks }
  else { blanks := [], broken := true, firstBreak := some (breakChar c), moreBreaks := [] }

/-- The rest of a gap.  After an end of line no tab may stand before the column `margin`. -/
def takeGap (margin : Nat) : Nat → Cursor → Gap → Option (Gap × Cursor)
  | 0, c, g => some (g, c)
  | fuel + 1, c, g =>
    match c.rest with
    | [] => some (g, c)
    | x :: _ =>
      if isGap x then
        if g.broken && x == '\t' && c.column < margin then none
        else takeGap margin fuel (c.skip 1) (g.addBlank x)
      else if isBreak x then takeGap margin fuel c.skipBreak (g.addBreak x)
      else some (g, c)

/-! ## 2. Plain scalars -/

/-- The characters that part the items of a flow collection. -/
def isFlowMark (c : Char) : Bool := ",[]\x7b\x7d".toList.contains c

/-- After these a colon may not stand within a flow collection. -/
def isBadAfterColon : List Char → Bool
  | [] => false
  | c :: _ => c == '?' || isFlowMark c

/-- The characters up to the end of a plain scalar or to the next gap in it, and the rest. -/
def plainWord (inFlow : Bool) : List Char → Option (List Char × List Char)
  | [] => some ([], [])
  | c :: r =>
    if isSpace c then some ([], c :: r)
    else if inFlow && c == ':' && isBadAfterColon r then none
    else if (c == ':' && endsWord r) || (inFlow && isFlowMark c) then some ([], c :: r)
    else (plainWord inFlow r).map fun (taken, rest) => (c :: taken, rest)

/-- A plain scalar: its text, the place after it, and whether the way there crossed a line after its
last character. -/
structure PlainScalar where
  text : List Char
  /-- The place after it. -/
  next : Cursor
  /-- Was a line crossed after the last character? -/
  crossed : Bool

/-- The rest of a plain scalar, after `found` (in reverse) and a gap. -/
def takePlain (inFlow : Bool) (margin : Nat) :
    Nat → Cursor → List Char → Gap → Option PlainScalar
  | 0, c, found, g => some ⟨found.reverse, c, g.broken⟩
  | fuel + 1, c, found, g =>
    if c.atDocumentMark || c.startsWith "#" then some ⟨found.reverse, c, g.broken⟩
    else do
      let (word, rest) ← plainWord inFlow c.rest
      let c := c.skip word.length
      let (found, g) :=
        if word.isEmpty then (found, g) else (word.reverse ++ g.text.reverse ++ found, {})
      if rest.isEmpty || !endsWord rest then some ⟨found.reverse, c, g.broken⟩
      else
        let (g, c) ← takeGap margin (c.rest.length + 1) c {}
        if !inFlow && c.column < margin then some ⟨found.reverse, c, g.broken⟩
        else takePlain inFlow margin fuel c found g

/-! ## 3. Quoted scalars -/

/-- The character of an escape of one letter. -/
def escaped? (c : Char) : Option Char :=
  match c with
  | '0' => some (Char.ofNat 0)
  | 'a' => some (Char.ofNat 7)
  | 'b' => some (Char.ofNat 8)
  | 't' | '\t' => some '\t'
  | 'n' => some '\n'
  | 'v' => some (Char.ofNat 11)
  | 'f' => some (Char.ofNat 12)
  | 'r' => some '\r'
  | 'e' => some (Char.ofNat 27)
  | ' ' | '"' | '/' | '\\' => some c
  | 'N' => some (Char.ofNat 0x85)
  | '_' => some (Char.ofNat 0xa0)
  | 'L' => some (Char.ofNat 0x2028)
  | 'P' => some (Char.ofNat 0x2029)
  | _ => none

/-- The number of hexadecimal digits after an escape letter. -/
def escapeWidth? (c : Char) : Option Nat :=
  match c with
  | 'x' => some 2
  | 'u' => some 4
  | 'U' => some 8
  | _ => none

/-- The character after a backslash, and the number of characters that it takes up. -/
def escape? : List Char → Option (Char × Nat)
  | [] => none
  | c :: r =>
    match escapeWidth? c with
    | none => (escaped? c).map fun x => (x, 1)
    | some width =>
      let ds := r.take width
      match Decimal.readDigits? 16 ds with
      | some n =>
        if ds.length = width ∧ Nat.isValidChar n then some (Char.ofNat n, width + 1) else none
      | none => none

/-- Why a run of characters in a quoted scalar ended. -/
inductive RunEnd where
  /-- A quote, a gap, or the end of the text follows. -/
  | stop
  /-- An end of line was escaped. -/
  | joined

/-- The characters up to the closing quote or to the next gap, in reverse. -/
def quotedRun (single : Bool) :
    Nat → Cursor → List Char → Option (List Char × Cursor × RunEnd)
  | 0, c, found => some (found, c, .stop)
  | fuel + 1, c, found =>
    match c.rest with
    | [] => some (found, c, .stop)
    | x :: r =>
      if isSpace x then some (found, c, .stop)
      else if single && x == '\'' then
        match r with
        | '\'' :: _ => quotedRun single fuel (c.skip 2) ('\'' :: found)
        | _ => some (found, c, .stop)
      else if !single && x == '"' then some (found, c, .stop)
      else if !single && x == '\\' then
        if !r.isEmpty && endsLine r then some (found, (c.skip 1).skipBreak, .joined)
        else do
          let (y, width) ← escape? r
          quotedRun single fuel (c.skip (width + 1)) (y :: found)
      else quotedRun single fuel (c.skip 1) (x :: found)

/-- The rest of a quoted scalar, after `found` (in reverse), and the place after its closing quote. -/
def takeQuoted (single : Bool) : Nat → Cursor → List Char → Option (List Char × Cursor)
  | 0, _, _ => none
  | fuel + 1, c, found =>
    if c.atDocumentMark || c.rest.isEmpty then none
    else do
      let (found, c, runEnd) ← quotedRun single (c.rest.length + 1) c found
      if c.startsWith (if single then "'" else "\"") then some (found.reverse, c.skip 1)
      else
        let g : Gap := match runEnd with
          | .stop => {}
          | .joined => { broken := true }
        let (g, c) ← takeGap 0 (c.rest.length + 1) c g
        takeQuoted single fuel c (g.text.reverse ++ found)

/-! ## 4. Block scalars -/

/-- What becomes of the ends of line at the end of a block. -/
inductive Chomping where
  | strip
  /-- The first is kept. -/
  | clip
  | keep
deriving DecidableEq

/-- The chomping that a sign asks for. -/
def chomping? (c : Char) : Option Chomping :=
  if c == '+' then some .keep else if c == '-' then some .strip else none

/-- The indentation that a digit asks for. -/
def indentation? (c : Char) : Option Nat :=
  if c.isDigit && c != '0' then some (Decimal.digitValue c) else none

/-- The chomping and the indentation asked for after the mark of a block, and the number of characters
that say so.  A zero asks for nothing that there is. -/
def blockHeader? : List Char → Option (Chomping × Option Nat × Nat)
  | [] => some (.clip, none, 0)
  | a :: r =>
    match chomping? a with
    | some ch =>
      match r with
      | b :: _ =>
        if b == '0' then none
        else match indentation? b with
          | some n => some (ch, some n, 2)
          | none => some (ch, none, 1)
      | [] => some (ch, none, 1)
    | none =>
      if a == '0' then none
      else match indentation? a with
        | some n =>
          match r with
          | b :: _ => match chomping? b with
            | some ch => some (ch, some n, 2)
            | none => some (.clip, some n, 1)
          | [] => some (.clip, some n, 1)
        | none => some (.clip, none, 0)

/-- Empty lines of a block: the ends of line (in reverse), the greatest column met, and the place of
the next line, after its indentation.  Without an indentation all blanks are indentation. -/
def emptyLines (indentation : Option Nat) :
    Nat → Cursor → List Char → Nat → Option (List Char × Nat × Cursor)
  | 0, c, breaks, widest => some (breaks, widest, c)
  | fuel + 1, c, breaks, widest =>
    let blanks := (c.rest.takeWhile (· == ' ')).length
    let c := c.skip (match indentation with
      | some n => min blanks (n - c.column)
      | none => blanks)
    let widest := max widest c.column
    let inMargin := match indentation with
      | some n => c.column < n
      | none => true
    match c.rest with
    | [] => some (breaks, widest, c)
    | x :: _ =>
      if inMargin && x == '\t' then none
      else if isBreak x then
        emptyLines indentation fuel c.skipBreak (breakChar x :: breaks) widest
      else some (breaks, widest, c)

/-- A block as far as it was read. -/
structure Block where
  /-- The text, in reverse. -/
  found : List Char := []
  /-- The end of the line before. -/
  lineEnd : List Char := []
  /-- The empty lines after it, in reverse. -/
  empty : List Char := []
  /-- Did the line before start with a blank? -/
  afterBlank : Bool := false

/-- The block with the gap before its next line put in place.  A folded block has a blank for an end
of line between two lines that do not start with a blank. -/
def Block.join (b : Block) (folded startsBlank : Bool) : Block :=
  let gap :=
    if folded && b.lineEnd == ['\n'] && !b.afterBlank && !startsBlank then
      if b.empty.isEmpty then [' '] else []
    else b.lineEnd
  { b with found := b.empty ++ gap ++ b.found, lineEnd := [], empty := [] }

/-- The lines of a block with the given indentation. -/
def takeLines (folded : Bool) (indentation : Nat) : Nat → Cursor → Block → Option (Block × Cursor)
  | 0, c, b => some (b, c)
  | fuel + 1, c, b =>
    match c.rest with
    | [] => some (b, c)
    | x :: _ =>
      if c.column ≠ indentation then some (b, c)
      else do
        let b := b.join folded (isGap x)
        let (line, c) := c.takeWhile fun y => !isBreak y
        let lineEnd := c.rest.take 1 |>.map breakChar
        let (empty, _, c) ← emptyLines (some indentation) (c.rest.length + 1) c.skipBreak [] 0
        takeLines folded indentation fuel c
          { found := line.reverse ++ b.found, lineEnd, empty, afterBlank := isGap x }

/-- A block scalar, from after its mark on, within a collection indented by `parent`. -/
def takeBlock (folded : Bool) (parent : Int) (c : Cursor) : Option (List Char × Cursor) := do
  let (chomping, asked, width) ← blockHeader? c.rest
  let c ← (c.skip width).finishLine?
  let fuel := c.rest.length + 1
  let asked := asked.map fun n => if 0 ≤ parent then parent.toNat + n else n
  let (empty, widest, c) ← emptyLines asked fuel c [] 0
  let indentation := asked.getD (max (max widest (parent + 1).toNat) 1)
  let (b, c) ← takeLines folded indentation fuel c { empty }
  let tail := match chomping with
    | .strip => []
    | .clip => b.lineEnd
    | .keep => b.empty ++ b.lineEnd
  return ((tail ++ b.found).reverse, c)

end Barogrid.Yaml
