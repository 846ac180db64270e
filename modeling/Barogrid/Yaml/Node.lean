import Barogrid.Yaml.Token

/-!
# YAML documents

A document is a tree of scalars, sequences and mappings.  A part of it may carry an anchor, and an
alias further on refers to it by the number of the anchor.

The number of an anchor is the number of different names that anchors had before it.  So a name that
is given again may share its number with the next new name, and a number stands for the last part that
it was given to, wherever the alias is.

`document?` reads a text that holds one document or none.  Each function consumes tokens from the
front; since every step on the way down or along a collection takes a token, a number of steps that
is a multiple of the number of tokens is enough.
-/

namespace Barogrid.Yaml

/-- A part of a document. -/
inductive Node where
  /-- A scalar, with its tag. -/
  | scalar (style : Style) (tag : Option String) (text : String)
  | sequence (items : List Node)
  /-- A mapping, its pairs in order. -/
  | mapping (pairs : List (Node × Node))
  /-- An alias, with the number of the anchor it refers to. -/
  | alias (number : Nat)

/-- A scalar that is left out. -/
def Node.absent : Node := .scalar .plain none ""

/-- A document. -/
structure Document where
  root : Node
  /-- The parts that carry an anchor, each with its number, the last to start first. -/
  anchored : List (Nat × Node)

/-- The node itself, or the part that the alias refers to. -/
def Document.target? (d : Document) : Node → Option Node
  | .alias number => d.anchored.lookup number
  | node => some node

/-! ## 1. The state of reading -/

/-- What is left to read, and what is known of anchors and tags. -/
structure Reading where
  tokens : List Token
  /-- The names of the anchors, each with the number it had last. -/
  anchors : List (String × Nat) := []
  /-- The numbers of the parts that carry an anchor, the last to start first. -/
  numbers : List Nat := []
  /-- The finished ones among these parts, each with how many of them started before it. -/
  finished : List (Nat × Node) := []
  /-- The starts of tags that directives name. -/
  handles : List (String × String) := []

/-- A step of reading; it may fail. -/
abbrev Read (α : Type) := StateT Reading Option α

namespace Read

/-- The next token. -/
def peek : Read Token := do
  return (← get).tokens.headD .streamEnd

/-- Takes the next token. -/
def skip : Read Unit := modify fun r => { r with tokens := r.tokens.tail }

/-- Takes the next token if it is this one, and fails otherwise. -/
def expect (t : Token) : Read Unit := do
  if (← peek) = t then skip else failure

/-- Gives an anchor its number, and says how many parts with an anchor started before. -/
def start (name : String) : Read Nat := do
  let r ← get
  let number := r.anchors.length
  set { r with
    anchors := (name, number) :: r.anchors.filter fun a => a.1 ≠ name
    numbers := number :: r.numbers }
  return r.numbers.length

/-- Notes the part that an anchor stands at, if there is one. -/
def finish (place : Option Nat) (node : Node) : Read Node := do
  match place with
  | some n => modify fun r => { r with finished := (n, node) :: r.finished }
  | none => pure ()
  return node

/-- What an alias refers to; an anchor of its name must precede it. -/
def refer (name : String) : Read Node := do
  match (← get).anchors.lookup name with
  | some number => return .alias number
  | none => failure

/-- The document of which this is the whole. -/
def document (root : Node) : Read Document := do
  let r ← get
  let places := (List.range r.numbers.length).reverse
  let anchored := (r.numbers.zip places).filterMap fun (number, place) =>
    (r.finished.lookup place).map fun node => (number, node)
  return { root, anchored }

/-- The full tag. -/
def resolveTag (handle suffix : String) : Read String := do
  if handle = "" then return suffix
  let r ← get
  match r.handles.lookup handle with
  | some start => return start ++ suffix
  | none =>
    if handle = "!" then return "!" ++ suffix
    else if handle = "!!" then return "tag:yaml.org,2002:" ++ suffix
    else failure

/-! ## 2. Nodes -/

/-- The anchor and the tag before a node, in any order. -/
structure Properties where
  anchor : Option String := none
  tag : Option String := none

/-- Takes the anchor, if one comes. -/
def takeAnchor (p : Properties) : Read Properties := do
  match ← peek with
  | .anchor name => skip; return { p with anchor := some name }
  | _ => return p

/-- Takes the tag, if one comes. -/
def takeTag (p : Properties) : Read Properties := do
  match ← peek with
  | .tag handle suffix => skip; return { p with tag := some (← resolveTag handle suffix) }
  | _ => return p

/-- Takes an anchor and a tag, in any order. -/
def takeProperties : Read Properties := do
  let p ← takeAnchor {}
  let p ← takeTag p
  if p.anchor.isNone then takeAnchor p else return p

/-- Where a node stands. -/
inductive Position where
  | flow
  | block
  /-- As a key or value in a block mapping; the items of a sequence need not be indented. -/
  | mappingPart
deriving DecidableEq

mutual

/-- A node. -/
def node : Nat → Position → Read Node
  | 0, _ => failure
  | fuel + 1, position => do
    if let .alias name ← peek then
      skip
      return ← refer name
    let p ← takeProperties
    let place ← p.anchor.mapM start
    let inBlock := position ≠ .flow
    match ← peek with
    | .scalar style text => skip; finish place (.scalar style p.tag text)
    | .flowSequence => skip; finish place (.sequence (← flowItems fuel true))
    | .flowMapping => skip; finish place (.mapping (← flowPairs fuel true))
    | .blockEntry =>
      if position = .mappingPart then finish place (.sequence (← looseItems fuel))
      else absentWith p place
    | .blockSequence =>
      if inBlock then
        skip
        finish place (.sequence (← blockItems fuel))
      else absentWith p place
    | .blockMapping =>
      if inBlock then
        skip
        finish place (.mapping (← blockPairs fuel))
      else absentWith p place
    | _ => absentWith p place

/-- A node of which only the properties are there. -/
def absentWith (p : Properties) (place : Option Nat) : Read Node := do
  if p.anchor.isSome || p.tag.isSome then finish place (.scalar .plain p.tag "") else failure

/-- A node, unless one of these tokens comes. -/
def nodeUnless : Nat → Position → List Token → Read Node
  | 0, _, _ => failure
  | fuel + 1, position, stops => do
    if stops.contains (← peek) then return .absent else node fuel position

/-- The items of a block sequence, and its end. -/
def blockItems : Nat → Read (List Node)
  | 0 => failure
  | fuel + 1 => do
    match ← peek with
    | .blockEntry =>
      skip
      let item ← nodeUnless fuel .block [.blockEntry, .blockEnd]
      return item :: (← blockItems fuel)
    | .blockEnd => skip; return []
    | _ => failure

/-- The items of a sequence that is not indented. -/
def looseItems : Nat → Read (List Node)
  | 0 => failure
  | fuel + 1 => do
    match ← peek with
    | .blockEntry =>
      skip
      let item ← nodeUnless fuel .block [.blockEntry, .key, .value, .blockEnd]
      return item :: (← looseItems fuel)
    | _ => return []

/-- The value after a key in a block mapping. -/
def blockValue : Nat → Read Node
  | 0 => failure
  | fuel + 1 => do
    if (← peek) = .value then
      skip
      nodeUnless fuel .mappingPart [.key, .value, .blockEnd]
    else return .absent

/-- The pairs of a block mapping, and its end. -/
def blockPairs : Nat → Read (List (Node × Node))
  | 0 => failure
  | fuel + 1 => do
    match ← peek with
    | .key =>
      skip
      let key ← nodeUnless fuel .mappingPart [.key, .value, .blockEnd]
      let value ← blockValue fuel
      return (key, value) :: (← blockPairs fuel)
    | .blockEnd => skip; return []
    | _ => failure

/-- The value after a key in a flow collection that ends with the given token. -/
def flowValue : Nat → Token → Read Node
  | 0, _ => failure
  | fuel + 1, ending => do
    if (← peek) = .value then
      skip
      nodeUnless fuel .flow [.flowEntry, ending]
    else return .absent

/-- An item of a flow sequence: a node, or a pair that is a mapping by itself.  A key that is left out
takes the token with it that shows this. -/
def flowItem : Nat → Read Node
  | 0 => failure
  | fuel + 1 => do
    if (← peek) = .key then
      skip
      let key ←
        if [Token.value, .flowEntry, .flowSequenceEnd].contains (← peek) then
          skip
          pure .absent
        else node fuel .flow
      return .mapping [(key, ← flowValue fuel .flowSequenceEnd)]
    else node fuel .flow

/-- The items of a flow sequence, and its end.  A comma precedes every item but the first. -/
def flowItems : Nat → Bool → Read (List Node)
  | 0, _ => failure
  | fuel + 1, first => do
    if (← peek) = .flowSequenceEnd then
      skip
      return []
    unless first do expect .flowEntry
    if (← peek) = .flowSequenceEnd then
      skip
      return []
    let item ← flowItem fuel
    return item :: (← flowItems fuel false)

/-- A pair of a flow mapping; the value may be left out, or the whole key after its mark. -/
def flowPair : Nat → Read (Node × Node)
  | 0 => failure
  | fuel + 1 => do
    if (← peek) = .key then
      skip
      let key ← nodeUnless fuel .flow [.value, .flowEntry, .flowMappingEnd]
      return (key, ← flowValue fuel .flowMappingEnd)
    else return (← node fuel .flow, .absent)

/-- The pairs of a flow mapping, and its end.  A comma precedes every pair but the first. -/
def flowPairs : Nat → Bool → Read (List (Node × Node))
  | 0, _ => failure
  | fuel + 1, first => do
    if (← peek) = .flowMappingEnd then
      skip
      return []
    unless first do expect .flowEntry
    if (← peek) = .flowMappingEnd then
      skip
      return []
    let pair ← flowPair fuel
    return pair :: (← flowPairs fuel false)

end

/-! ## 3. Documents -/

/-- The directives before a document.  There is at most one version, which must be 1.1 or 1.2, and
each handle is named at most once. -/
def directives : Nat → Bool → Read Unit
  | 0, _ => failure
  | fuel + 1, versioned => do
    match ← peek with
    | .versionDirective major minor =>
      if versioned || major ≠ 1 || (minor ≠ 1 && minor ≠ 2) then failure
      skip
      directives fuel true
    | .tagDirective handle start =>
      let r ← get
      if (r.handles.lookup handle).isSome then failure
      set { r with tokens := r.tokens.tail, handles := (handle, start) :: r.handles }
      directives fuel versioned
    | _ => return

/-- The end of a text that holds one document: marks that a document ends, and nothing else. -/
def ending : Nat → Read Unit
  | 0 => failure
  | fuel + 1 => do
    match ← peek with
    | .documentEnd => skip; ending fuel
    | .streamEnd => return
    | _ => failure

/-- Is this a token with which no document begins that is not marked? -/
def marksDocument : Token → Bool
  | .versionDirective .. | .tagDirective .. | .documentStart | .streamEnd => true
  | _ => false

/-- Is this a token that shows that a marked document is left out? -/
def endsDocument (t : Token) : Bool := marksDocument t || t = .documentEnd

/-- The only document of a text, if there is one. -/
def single (fuel : Nat) : Read (Option Document) := do
  let t ← peek
  if t = .streamEnd then return none
  let root ←
    if marksDocument t then
      directives fuel false
      expect .documentStart
      if endsDocument (← peek) then pure .absent else node fuel .block
    else node fuel .block
  ending fuel
  return some (← document root)

end Read

/-- The document that a text holds: `none` when the text is not well formed or holds several, and
`some none` when it holds none. -/
def document? (s : String) : Option (Option Document) := do
  let tokens ← tokens? s
  let (document, _) ← (Read.single (4 * tokens.length + 8)).run { tokens }
  return document

end Barogrid.Yaml
