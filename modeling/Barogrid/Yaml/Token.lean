import Barogrid.Yaml.Scalar

/-!
# YAML tokens

A text is cut into tokens.  Indentation becomes tokens of its own: a deeper column opens a block
collection, and a column further left closes those that are deeper.

That a scalar is a key is only known when a colon follows it.  So each place where a key may have
started is kept as a candidate, one for each level of flow collections; when the colon comes, the
token that says so is put in at that place.  A candidate is given up when its line ends, and one that
stands where only a key can stand must not be given up.
-/

namespace Barogrid.Yaml

/-- How a scalar was written. -/
inductive Style where
  | plain
  | quoted
  | literal
  | folded
deriving DecidableEq, Repr

/-- A token. -/
inductive Token where
  | versionDirective (major minor : Nat)
  /-- A directive that names the start of tags. -/
  | tagDirective (handle start : String)
  | documentStart
  | documentEnd
  | blockSequence
  | blockMapping
  | blockEnd
  | flowSequence
  | flowSequenceEnd
  | flowMapping
  | flowMappingEnd
  /-- A hyphen before an item. -/
  | blockEntry
  | flowEntry
  | key
  | value
  | alias (name : String)
  | anchor (name : String)
  | tag (handle suffix : String)
  | scalar (style : Style) (text : String)
  | streamEnd
deriving DecidableEq, Repr

/-! ## 1. The state of the walk -/

/-- A place where a key may have started. -/
structure Candidate where
  /-- Can only a key stand there? -/
  required : Bool
  /-- The number of tokens before it. -/
  position : Nat
  line : Nat
  /-- The number of bytes before it. -/
  offset : Nat
  /-- Its column. -/
  column : Nat

/-- A text as far as it was cut. -/
structure Walk where
  cursor : Cursor
  tokens : Array Token := #[]
  /-- The number of open flow collections. -/
  flow : Nat := 0
  /-- The column of the innermost block collection, or -1. -/
  indent : Int := -1
  /-- The columns of the block collections around it. -/
  outer : List Int := []
  /-- May a key start here? -/
  keyAllowed : Bool := true
  /-- The candidate of the innermost flow collection. -/
  candidate : Option Candidate := none
  /-- The candidates of the collections around it. -/
  outerCandidates : List (Option Candidate) := []

namespace Walk

/-- The walk with one more token. -/
def push (w : Walk) (t : Token) : Walk := { w with tokens := w.tokens.push t }

/-- The walk some characters further. -/
def skip (w : Walk) (n : Nat) : Walk := { w with cursor := w.cursor.skip n }

/-- A candidate that is still on its line and at most 1024 bytes away; one that is given up must not
be required. -/
def refresh (c : Cursor) : Option Candidate → Option (Option Candidate)
  | none => some none
  | some k =>
    if k.line < c.line || k.offset + 1024 < c.offset then
      if k.required then none else some none
    else some (some k)

/-- Gives up the candidates that can be none any more. -/
def refreshAll (w : Walk) : Option Walk := do
  return { w with
    candidate := ← refresh w.cursor w.candidate
    outerCandidates := ← w.outerCandidates.mapM (refresh w.cursor) }

/-- Gives up the innermost candidate. -/
def dropCandidate (w : Walk) : Option Walk :=
  match w.candidate with
  | some k => if k.required then none else some { w with candidate := none }
  | none => some w

/-- Makes this place the innermost candidate, if a key may start here. -/
def saveCandidate (w : Walk) : Option Walk :=
  if !w.keyAllowed then some w
  else do
    let w ← w.dropCandidate
    let c := w.cursor
    let required : Bool := w.flow = 0 ∧ w.indent = c.column
    return { w with candidate := some ⟨required, w.tokens.size, c.line, c.offset, c.column⟩ }

/-- Opens a block collection at a column that is deeper than the innermost one.  Its token stands
before the tokens from `position` on. -/
def roll (w : Walk) (column : Nat) (position : Nat) (t : Token) : Walk :=
  if w.flow = 0 ∧ w.indent < column then
    { w with
      outer := w.indent :: w.outer
      indent := column
      tokens := w.tokens.insertIdxIfInBounds position t }
  else w

/-- Closes the block collections that are deeper than a column. -/
def unrollTo (column : Int) (indent : Int) : List Int → Array Token → Int × List Int × Array Token
  | [], tokens => (indent, [], tokens)
  | i :: outer, tokens =>
    if column < indent then unrollTo column i outer (tokens.push .blockEnd)
    else (indent, i :: outer, tokens)

/-- Closes the block collections that are deeper than a column, outside of flow collections. -/
def unroll (w : Walk) (column : Int) : Walk :=
  if w.flow = 0 then
    let (indent, outer, tokens) := unrollTo column w.indent w.outer w.tokens
    { w with indent, outer, tokens }
  else w

/-! ## 2. Between tokens -/

/-- The walk at the next token, after blanks, comments and ends of line.  A tab is no blank where a
key may start. -/
def toNext : Nat → Walk → Walk
  | 0, w => w
  | fuel + 1, w =>
    let tabs := 0 < w.flow || !w.keyAllowed
    let c := w.cursor.skipMark.skipWhile fun x => x == ' ' || (tabs && x == '\t')
    let c := if c.startsWith "#" then c.skipWhile fun x => !isBreak x else c
    if !c.rest.isEmpty && endsLine c.rest then
      toNext fuel { w with cursor := c.skipBreak, keyAllowed := w.keyAllowed || w.flow = 0 }
    else { w with cursor := c }

/-! ## 3. Names and tags -/

/-- The name after the sign of an anchor or an alias, and the place after it. -/
def takeName (c : Cursor) : Option (String × Cursor) :=
  let (name, c) := c.takeWhile isNameChar
  let ends := endsWord c.rest || c.rest.head?.any fun x => "?:,]\x7d%@`".toList.contains x
  if name.isEmpty || !ends then none else some (String.ofList name, c)

/-- The part of a tag between exclamation marks, and the place after it.  In a directive it must be
closed, unless it is a single mark. -/
def takeHandle (inDirective : Bool) (c : Cursor) : Option (String × Cursor) :=
  if !c.startsWith "!" then none
  else
    let (name, d) := (c.skip 1).takeWhile isNameChar
    if d.startsWith "!" then some (String.ofList ('!' :: name ++ ['!']), d.skip 1)
    else if inDirective && !name.isEmpty then none
    else some (String.ofList ('!' :: name), d)

/-- May the character stand in a tag?  Commas and brackets only in one between angle brackets. -/
def isTagChar (verbatim : Bool) (c : Char) : Bool :=
  isNameChar c || ";/?:@&=+$.!~*'()%".toList.contains c || (verbatim && ",[]".toList.contains c)

/-- The number of octets of a UTF-8 sequence that begins with this octet. -/
def sequenceLength? (octet : Nat) : Option Nat :=
  if octet < 0x80 then some 1
  else if octet < 0xc0 then none
  else if octet < 0xe0 then some 2
  else if octet < 0xf0 then some 3
  else if octet < 0xf8 then some 4
  else none

/-- The octets of a tag, each as the character of its number, with escapes of two hexadecimal digits
resolved.  Escapes that make up a UTF-8 sequence follow each other directly; `due` of them are still
to come. -/
def unescapeTag (due : Nat) : List Char → Option (List Char)
  | [] => if due = 0 then some [] else none
  | '%' :: a :: b :: r => do
    let octet ← Decimal.readDigits? 16 [a, b]
    let rest ←
      if due = 0 then unescapeTag ((← sequenceLength? octet) - 1) r
      else if 0x80 ≤ octet ∧ octet < 0xc0 then unescapeTag (due - 1) r
      else none
    return Char.ofNat octet :: rest
  | c :: r => if c = '%' ∨ due ≠ 0 then none else (unescapeTag 0 r).map (c :: ·)

/-- A tag from `start` on, which must not be empty, and the place after it.  What follows a NUL does
not count. -/
def takeTagText (verbatim : Bool) (start : String) (c : Cursor) : Option (String × Cursor) := do
  let (taken, c) := c.takeWhile (isTagChar verbatim)
  let octets ← unescapeTag 0 taken
  if start.isEmpty && octets.isEmpty then none
  else some (start ++ String.ofList (octets.takeWhile fun x => x ≠ Char.ofNat 0), c)

/-- The handle and the rest of a tag, and the place after it. -/
def takeTagParts (c : Cursor) : Option (String × String × Cursor) := do
  if c.startsWith "!<" then
    let (text, c) ← takeTagText true "" (c.skip 2)
    if c.startsWith ">" then some ("", text, c.skip 1) else none
  else
    let (handle, d) ← takeHandle false c
    if 1 < handle.length && handle.endsWith "!" then
      let (suffix, d) ← takeTagText false "" d
      some (handle, suffix, d)
    else
      let (text, d) ← takeTagText false handle d
      if text = "!" then some ("", "!", d)
      else some ("!", String.ofList (text.toList.drop 1), d)

/-- A tag. -/
def takeTag (w : Walk) : Option Walk := do
  let (handle, suffix, c) ← takeTagParts w.cursor
  let ends := endsWord c.rest || (0 < w.flow && c.startsWith ",")
  if ends then return { w with cursor := c, tokens := w.tokens.push (.tag handle suffix) } else none

/-! ## 4. Directives -/

/-- A number of at most nine digits, and the place after it. -/
def takeNumber (c : Cursor) : Option (Nat × Cursor) :=
  let (ds, c) := c.takeWhile Char.isDigit
  if ds.isEmpty || 9 < ds.length then none else some (Decimal.ofDigits 10 ds, c)

/-- What a directive says, and the place after it. -/
def takeDirectiveBody (name : String) (c : Cursor) : Option (Token × Cursor) := do
  let c := c.skipWhile isGap
  if name = "YAML" then
    let (major, c) ← takeNumber c
    if !c.startsWith "." then none
    else
      let (minor, c) ← takeNumber (c.skip 1)
      some (.versionDirective major minor, c)
  else if name = "TAG" then
    let (handle, c) ← takeHandle true c
    if !(c.rest.head?.any isGap) then none
    else
      let (start, c) ← takeTagText true "" (c.skipWhile isGap)
      if endsWord c.rest then some (.tagDirective handle start, c) else none
  else none

/-- A directive, with its line. -/
def takeDirective (w : Walk) : Option Walk := do
  let (name, c) := (w.cursor.skip 1).takeWhile isNameChar
  if name.isEmpty || !endsWord c.rest then none
  else
    let (t, c) ← takeDirectiveBody (String.ofList name) c
    return { w with cursor := ← c.finishLine?, tokens := w.tokens.push t }

/-! ## 5. Tokens -/

/-- A mark that separates documents, or a directive: all block collections end. -/
def atMargin (w : Walk) : Option Walk := do
  let w ← (w.unroll (-1)).dropCandidate
  return { w with keyAllowed := false }

/-- The start of a flow collection, which may itself be a key. -/
def openFlow (w : Walk) (t : Token) : Option Walk := do
  let w ← w.saveCandidate
  return { (w.push t).skip 1 with
    flow := w.flow + 1
    keyAllowed := true
    candidate := none
    outerCandidates := w.candidate :: w.outerCandidates }

/-- The end of a flow collection. -/
def closeFlow (w : Walk) (t : Token) : Option Walk := do
  let w ← w.dropCandidate
  let w := { (w.push t).skip 1 with keyAllowed := false }
  match w.outerCandidates with
  | k :: ks => return { w with flow := w.flow - 1, candidate := k, outerCandidates := ks }
  | [] => return w

/-- A comma. -/
def takeFlowEntry (w : Walk) : Option Walk := do
  let w ← w.dropCandidate
  return { (w.push .flowEntry).skip 1 with keyAllowed := true }

/-- The start of an item or of a key in a block: here a block collection of this kind may begin. -/
def beginBlock (w : Walk) (t : Token) : Option Walk :=
  if 0 < w.flow then some w
  else if !w.keyAllowed then none
  else some (w.roll w.cursor.column w.tokens.size t)

/-- A hyphen before an item. -/
def takeBlockEntry (w : Walk) : Option Walk := do
  let w ← (← w.beginBlock .blockSequence).dropCandidate
  return { (w.push .blockEntry).skip 1 with keyAllowed := true }

/-- A question mark before a key. -/
def takeKey (w : Walk) : Option Walk := do
  let w ← (← w.beginBlock .blockMapping).dropCandidate
  return { (w.push .key).skip 1 with keyAllowed := w.flow = 0 }

/-- A colon: the innermost candidate is a key, if there is one. -/
def takeValue (w : Walk) : Option Walk :=
  match w.candidate with
  | some k =>
    let w := { w with
      tokens := w.tokens.insertIdxIfInBounds k.position .key
      candidate := none
      keyAllowed := false }
    some (((w.roll k.column k.position .blockMapping).push .value).skip 1)
  | none => do
    let w ← w.beginBlock .blockMapping
    return { (w.push .value).skip 1 with keyAllowed := w.flow = 0 }

/-- An anchor or an alias. -/
def takeReference (w : Walk) (make : String → Token) : Option Walk := do
  let w ← w.saveCandidate
  let (name, c) ← takeName (w.cursor.skip 1)
  return { w with cursor := c, keyAllowed := false, tokens := w.tokens.push (make name) }

/-- A block scalar, at its mark. -/
def takeBlockScalar (w : Walk) (folded : Bool) : Option Walk := do
  let w ← w.dropCandidate
  let (text, c) ← takeBlock folded w.indent (w.cursor.skip 1)
  let style := if folded then Style.folded else Style.literal
  return { w.push (.scalar style (String.ofList text)) with cursor := c, keyAllowed := true }

/-- A quoted scalar, at its quote. -/
def takeQuotedScalar (w : Walk) (single : Bool) : Option Walk := do
  let w ← w.saveCandidate
  let c := w.cursor.skip 1
  let (text, c) ← takeQuoted single (c.rest.length + 1) c []
  return { w.push (.scalar .quoted (String.ofList text)) with cursor := c, keyAllowed := false }

/-- A plain scalar. -/
def takePlainScalar (w : Walk) : Option Walk := do
  let w ← w.saveCandidate
  let c := w.cursor
  let margin := (w.indent + 1).toNat
  let s ← takePlain (0 < w.flow) margin (c.rest.length + 1) c [] {}
  return { w.push (.scalar .plain (String.ofList s.text)) with
    cursor := s.next
    keyAllowed := s.crossed }

/-- Can a plain scalar start with these characters? -/
def startsPlain (flow : Nat) : List Char → Bool
  | [] => false
  | c :: r =>
    (!isSpace c && !("-?:,[]\x7b\x7d#&*!|>'\"%@`".toList.contains c)) ||
      (c == '-' && !(r.head?.any isGap)) ||
      (flow = 0 && (c == '?' || c == ':') && !endsWord r)

/-- The next token, after what stands before it; `true` when it is the last one. -/
def next (w : Walk) : Option (Walk × Bool) := do
  let w := toNext (w.cursor.rest.length + 1) w
  let w ← w.refreshAll
  let w := w.unroll w.cursor.column
  let c := w.cursor
  let go := fun (r : Option Walk) => r.map fun w => (w, false)
  match c.rest with
  | [] => do
    let w ← w.atMargin
    return (w.push .streamEnd, true)
  | x :: r =>
    if c.column = 0 && x == '%' then go (w.atMargin.bind takeDirective)
    else if c.atDocumentMark then
      let t := if x == '-' then Token.documentStart else .documentEnd
      go (w.atMargin.map fun w => (w.push t).skip 3)
    else if x == '[' then go (w.openFlow .flowSequence)
    else if x == '\x7b' then go (w.openFlow .flowMapping)
    else if x == ']' then go (w.closeFlow .flowSequenceEnd)
    else if x == '\x7d' then go (w.closeFlow .flowMappingEnd)
    else if x == ',' then go w.takeFlowEntry
    else if x == '-' && endsWord r then go w.takeBlockEntry
    else if x == '?' && (0 < w.flow || endsWord r) then go w.takeKey
    else if x == ':' && (0 < w.flow || endsWord r) then go w.takeValue
    else if x == '*' then go (w.takeReference .alias)
    else if x == '&' then go (w.takeReference .anchor)
    else if x == '!' then
      go (w.saveCandidate.bind fun w => takeTag { w with keyAllowed := false })
    else if x == '|' && w.flow = 0 then go (w.takeBlockScalar false)
    else if x == '>' && w.flow = 0 then go (w.takeBlockScalar true)
    else if x == '\'' then go (w.takeQuotedScalar true)
    else if x == '"' then go (w.takeQuotedScalar false)
    else if startsPlain w.flow c.rest then go w.takePlainScalar
    else none

/-- The tokens from here on; each takes at least one character. -/
def finish : Nat → Walk → Option (Array Token)
  | 0, _ => none
  | fuel + 1, w => do
    let (w, ended) ← w.next
    if ended then return w.tokens else finish fuel w

end Walk

/-- The tokens of a text. -/
def tokens? (s : String) : Option (List Token) :=
  let cs := s.toList
  if cs.all isAllowed then
    (Walk.finish (cs.length + 1) { cursor := { rest := cs } }).map Array.toList
  else none

end Barogrid.Yaml
