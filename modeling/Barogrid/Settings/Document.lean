import Barogrid.Decimal.Reader
import Barogrid.Settings
import Barogrid.Text.Blank
import Barogrid.Yaml.Node

/-!
# Settings from a YAML document

A document of settings is a mapping; settings that it leaves out keep their default values, and keys
that name no setting are passed over.  A document that is empty leaves all out.

Which scalars are numbers:

* only plain ones are, and literal blocks that carry the tag of the number's kind;
* a whole number may be written in base 2, 8 or 16, with `0b`, `0o` or `0x` in front, and a decimal
  one must not begin with a zero that is not needed;
* a double is written in decimal, or as `.inf` or `.nan`.
-/

namespace Barogrid

namespace Yaml

/-! ## 1. Numbers -/

/-- The text of a node that may be a number of the kind with the given tag. -/
def Node.numberText? (kind : String) : Node → Option String
  | .scalar .plain _ text => some text
  | .scalar .literal (some tag) text => if tag = kind then some text else none
  | _ => none

/-- A text without a plus sign in front, unless another sign follows that. -/
def withoutPlus? (s : String) : Option String :=
  match s.toList with
  | '+' :: '+' :: _ | '+' :: '-' :: _ => none
  | '+' :: cs => some (String.ofList cs)
  | _ => some s

/-- The double that a text denotes. -/
def readDouble? (s : String) : Option Binary64 := do
  let bare ← withoutPlus? s
  if [".inf", ".Inf", ".INF"].contains bare then some (.infinity false)
  else if ["-.inf", "-.Inf", "-.INF"].contains s then some (.infinity true)
  else if [".nan", ".NaN", ".NAN"].contains s then some (.nan false)
  else (Decimal.readDouble? bare).filter Binary64.isFinite

/-- Is the text decimal digits with a zero in front that is not needed? -/
def hasIdleZero (s : String) : Bool :=
  let cs := match s.toList with
    | '-' :: r => r
    | '+' :: r => r
    | r => r
  match cs with
  | '0' :: d :: ds => (d :: ds).all Char.isDigit
  | _ => false

/-- The base that a number names in front of its digits, and the digits. -/
def baseOf? : List Char → Option (Nat × List Char)
  | '0' :: 'x' :: ds => some (16, ds)
  | '0' :: 'o' :: ds => some (8, ds)
  | '0' :: 'b' :: ds => some (2, ds)
  | _ => none

/-- The integer that a text denotes. -/
def readInteger? (s : String) : Option Int := do
  let (negative, cs) := match s.toList with
    | '-' :: r => (true, r)
    | '+' :: r => (false, r)
    | r => (false, r)
  let n ← match baseOf? cs with
    | some (base, ds) => Decimal.readDigits? base ds
    | none => if hasIdleZero s then none else Decimal.readDigits? 10 cs
  return if negative then -(n : Int) else n

/-- The double that a node is. -/
def Node.double? (n : Node) : Option Binary64 := do
  readDouble? (← n.numberText? "tag:yaml.org,2002:float")

/-- The integer of a range that a node is. -/
def Node.integer? (range : IntegerRange) (n : Node) : Option Int := do
  let i ← readInteger? (← n.numberText? "tag:yaml.org,2002:int")
  if range.contains i then some i else none

/-- The 64-bit number without sign that a node is; it has no minus sign. -/
def Node.word? (n : Node) : Option Nat := do
  let text ← n.numberText? "tag:yaml.org,2002:int"
  if text.startsWith "-" then none
  else (← n.integer? .word).toNat

/-! ## 2. Texts and lists -/

/-- The text that a node is. -/
def Node.text? : Node → Option String
  | .scalar _ _ text => some text
  | _ => none

/-- Is the node left out? -/
def Node.isAbsent : Node → Bool
  | .scalar .plain _ text => text.isEmpty
  | _ => false

/-- The items of a node; a list that is left out has none. -/
def Node.items? : Node → Option (List Node)
  | .sequence items => some items
  | node => if node.isAbsent then some [] else none

/-- The pairs of a node; a mapping that is left out has none. -/
def Node.pairs? : Node → Option (List (Node × Node))
  | .mapping pairs => some pairs
  | node => if node.isAbsent then some [] else none

/-- The color that a node is. -/
def Node.color? (n : Node) : Option Color := do
  (Color.parse (← n.text?)).toOption

end Yaml

/-! ## 3. Settings -/

namespace Settings

/-- How a setting is taken from a part of a document. -/
abbrev Setter := Yaml.Document → Settings → Yaml.Node → Option Settings

/-- A setting that is a double. -/
def doubleSetter (put : Settings → Binary64 → Settings) : Setter :=
  fun _ s n => n.double?.map (put s)

/-- A setting that is a 64-bit number. -/
def wordSetter (put : Settings → Nat → Settings) : Setter := fun _ s n => n.word?.map (put s)

/-- A setting that is a 32-bit number. -/
def zoomSetter (put : Settings → Int → Settings) : Setter :=
  fun _ s n => (n.integer? .int32).map (put s)

/-- The settings by their key. -/
def setters : List (String × Setter) :=
  [("min_pressure", doubleSetter fun s x => { s with minPressure := x }),
    ("max_pressure", doubleSetter fun s x => { s with maxPressure := x }),
    ("min_hash_length", wordSetter fun s n => { s with minLength := n }),
    ("max_hash_length", wordSetter fun s n => { s with maxLength := n }),
    ("min_zoom", zoomSetter fun s i => { s with minZoom := i }),
    ("max_zoom", zoomSetter fun s i => { s with maxZoom := i }),
    ("gradient_stops", fun d s n => do
      let stops ← (← n.items?).mapM fun item => do (← d.target? item).color?
      return { s with stops }),
    ("interpolation_passes", wordSetter fun s n => { s with passes := n }),
    ("fill_opacity", doubleSetter fun s x => { s with opacity := x })]

/-- The settings after pairs of a document; no setting may be named twice. -/
def applyPairs (d : Yaml.Document) :
    List (Yaml.Node × Yaml.Node) → List String → Settings → Option Settings
  | [], _, s => some s
  | (key, value) :: pairs, seen, s => do
    let name ← (← d.target? key).text?
    match setters.lookup name with
    | none => applyPairs d pairs seen s
    | some set =>
      if seen.contains name then none
      else applyPairs d pairs (name :: seen) (← set d s (← d.target? value))

/-- The settings of a YAML text. -/
def parseYaml (text : String) : Except Failure Settings :=
  let settings? : Option Settings := do
    match ← Yaml.document? text with
    | none => some {}
    | some document => applyPairs document (← document.root.pairs?) [] {}
  match settings? with
  | some s => .ok s
  | none => .error .badYaml

end Settings

end Barogrid
