import Barogrid.Settings.Environment
import Barogrid.Text.Alphanumeric

/-!
# Environment files

Variables may also be set by a file of assignments `NAME=value`, one to a line, with `export` before
the name if one likes.

* Values may stand in quotes, inside which a line may end; single quotes keep everything as it is,
  and outside of them a backslash takes the meaning from the character after it.
* `$NAME` and `${NAME}` stand for the value that a variable has by then.
* A number sign after a blank begins a comment.

A variable that is set already keeps its value.  The first line that cannot be read ends the reading;
what stands before it counts.  No variable can have a value with a NUL in it (`Unsettable`).
-/

namespace Barogrid.EnvironmentFile

/-! ## 1. Lines -/

/-- How a line stands with its quotes. -/
inductive Quoting where
  | bare
  /-- Outside of quotes, after a blank. -/
  | blank
  /-- After a backslash outside of quotes. -/
  | escaped
  | single
  /-- After a backslash inside single quotes. -/
  | singleEscaped
  | double
  /-- After a backslash inside double quotes. -/
  | doubleEscaped
deriving DecidableEq, Repr

namespace Quoting

/-- What a character outside of quotes leads to. -/
def opened (c : Char) : Quoting :=
  if c = '\\' then .escaped
  else if c = '"' then .double
  else if c = '\'' then .single
  else .bare

/-- What a character leads to. -/
def next (q : Quoting) (c : Char) : Quoting :=
  match q with
  | .bare => if Text.isBlank c && c ≠ '\n' && c ≠ '\r' then .blank else opened c
  | .blank => opened c
  | .escaped => .bare
  | .single => if c = '\\' then .singleEscaped else if c = '\'' then .bare else .single
  | .singleEscaped => .single
  | .double => if c = '\\' then .doubleEscaped else if c = '"' then .bare else .double
  | .doubleEscaped => .double

/-- Does a comment begin with this character? -/
def beginsComment (q : Quoting) (c : Char) : Bool := q = .blank && c = '#'

/-- What stands before a comment, and how the line stands with its quotes in the end; there is no
such end if a comment was met. -/
def scan (q : Quoting) : List Char → List Char × Option Quoting
  | [] => ([], some q)
  | c :: cs =>
    if q.beginsComment c then ([], none)
    else
      let (kept, final) := scan (q.next c) cs
      (c :: kept, final)

end Quoting

/-- The lines of a text, each with the line feed that ends it. -/
def physicalLines : List Char → List (List Char)
  | [] => []
  | c :: cs =>
    if c = '\n' then [c] :: physicalLines cs
    else
      match physicalLines cs with
      | [] => [[c]]
      | line :: lines => (c :: line) :: lines

/-- A line without the line feed, or the carriage return and the line feed, at its end. -/
def chomp (line : List Char) : List Char :=
  match line.reverse with
  | '\n' :: '\r' :: r => r.reverse
  | '\n' :: r => r.reverse
  | _ => line

/-- Is the line a comment? -/
def isComment (line : List Char) : Bool := (line.dropWhile Text.isBlank).head? == some '#'

/-- Lines put together where a quote is still open; `none` is a last line that is left open. -/
def logicalLines (q : Quoting) (begun : List Char) : List (List Char) → List (Option (List Char))
  | [] => if q = .bare then [] else [none]
  | line :: lines =>
    let whole := begun ++ line
    if isComment whole then some [] :: logicalLines .bare [] lines
    else
      match q.scan line with
      | (kept, none) => some (begun ++ kept) :: logicalLines .bare [] lines
      | (_, some .bare) => some (chomp whole) :: logicalLines .bare [] lines
      | (_, some q) => logicalLines q whole lines

/-! ## 2. Values -/

/-- How the reading of a value stands. -/
inductive Mode where
  | bare
  | single
  | double
  /-- After a backslash. -/
  | escaped (inDouble : Bool)
  /-- In the name after a dollar sign. -/
  | name (inDouble : Bool) (letters : List Char)
  | bracedName (inDouble : Bool) (letters : List Char)
  /-- After the value. -/
  | ended
  | comment
deriving DecidableEq

/-- Outside of quotes or inside double quotes. -/
def Mode.around (inDouble : Bool) : Mode := if inDouble then .double else .bare

/-- A value that is being read. -/
structure Value where
  /-- What it holds so far, in reverse. -/
  held : List Char
  mode : Mode

namespace Value

/-- The value with more characters. -/
def append (v : Value) (cs : List Char) (mode : Mode) : Value := ⟨cs.reverse ++ v.held, mode⟩

/-- The value of a variable; one that is not set is empty. -/
def expansion (env : Environment) (letters : List Char) : List Char :=
  ((env.value? (String.ofList letters)).getD "").toList

/-- What a character after a backslash stands for. -/
def unescape? (c : Char) : Option Char :=
  if c = 'n' then some '\n'
  else if c = '\\' ∨ c = '\'' ∨ c = '"' ∨ c = '$' ∨ c = ' ' then some c
  else none

/-- A character outside of quotes. -/
def stepBare (v : Value) (c : Char) : Value :=
  if c = '$' then { v with mode := .name false [] }
  else if c = '\'' then { v with mode := .single }
  else if c = '"' then { v with mode := .double }
  else if c = '\\' then { v with mode := .escaped false }
  else if c = ' ' ∨ c = '\t' then { v with mode := .ended }
  else v.append [c] .bare

/-- A character inside double quotes. -/
def stepDouble (v : Value) (c : Char) : Value :=
  if c = '$' then { v with mode := .name true [] }
  else if c = '"' then { v with mode := .bare }
  else if c = '\\' then { v with mode := .escaped true }
  else v.append [c] .double

/-- A character after a dollar sign.  The name goes on through letters and digits; the character that
ends it is taken as it is. -/
def stepName (env : Environment) (v : Value) (inDouble : Bool) (letters : List Char) (c : Char) :
    Value :=
  if Text.isAlphanumeric c then { v with mode := .name inDouble (letters ++ [c]) }
  else if c = '\x7b' ∧ letters = [] then { v with mode := .bracedName inDouble [] }
  else
    let v := v.append (expansion env letters) v.mode
    if c = '$' then { v with mode := .name inDouble [] }
    else v.append [c] (Mode.around inDouble)

/-- A character of a name between braces. -/
def stepBracedName (env : Environment) (v : Value) (inDouble : Bool) (letters : List Char)
    (c : Char) : Value :=
  if c = '\x7d' then v.append (expansion env letters) (Mode.around inDouble)
  else { v with mode := .bracedName inDouble (letters ++ [c]) }

/-- One more character. -/
def step (env : Environment) (v : Value) (c : Char) : Option Value :=
  match v.mode with
  | .bare => some (v.stepBare c)
  | .single => some (if c = '\'' then { v with mode := .bare } else v.append [c] .single)
  | .double => some (v.stepDouble c)
  | .escaped inDouble => (unescape? c).map fun c => v.append [c] (Mode.around inDouble)
  | .name inDouble letters => some (v.stepName env inDouble letters c)
  | .bracedName inDouble letters => some (v.stepBracedName env inDouble letters c)
  | .ended =>
    if c = ' ' ∨ c = '\t' then some v
    else if c = '#' then some { v with mode := .comment }
    else none
  | .comment => some v

/-- The value at the end of a line; an open quote or brace leaves it without one. -/
def finish (env : Environment) (v : Value) : Option String :=
  match v.mode with
  | .single | .double | .escaped true | .name true _ | .bracedName .. => none
  | .name false letters => some (String.ofList (v.append (expansion env letters) .bare).held.reverse)
  | .bare | .escaped false | .ended | .comment => some (String.ofList v.held.reverse)

/-- The value that characters stand for. -/
def read? (env : Environment) (cs : List Char) : Option String := do
  (← cs.foldlM (step env) ⟨[], .bare⟩).finish env

end Value

/-! ## 3. Assignments -/

/-- A name at the front, and the rest. -/
def splitName? (cs : List Char) : Option (String × List Char) :=
  let inName := fun (c : Char) => c.isAlphanum || c = '_' || c = '.'
  if cs.head?.any fun c => c.isAlpha || c = '_' then
    some (String.ofList (cs.takeWhile inName), (cs.dropWhile inName).dropWhile Text.isBlank)
  else none

/-- What follows an equals sign. -/
def afterEquals? : List Char → Option (List Char)
  | '=' :: cs => some (cs.dropWhile Text.isBlank)
  | _ => none

/-- The name and the characters of the value in an assignment. -/
def splitAssignment? (cs : List Char) : Option (String × List Char) := do
  let (name, rest) ← splitName? cs
  match afterEquals? rest with
  | some value => return (name, value)
  | none =>
    if name ≠ "export" then none
    else
      let (name, rest) ← splitName? rest
      return (name, ← afterEquals? rest)

/-- What a line says. -/
inductive Statement where
  | nothing
  | assignment (name value : String)
  | unreadable

/-- What a line says in an environment. -/
def Statement.ofLine (env : Environment) (line : List Char) : Statement :=
  let cs := Text.trimChars line
  if cs.isEmpty || cs.head? == some '#' then .nothing
  else
    match splitAssignment? cs with
    | none => .unreadable
    | some (name, value) =>
      if value.isEmpty || value.head? == some '#' then .assignment name ""
      else
        match Value.read? env value with
        | some value => .assignment name value
        | none => .unreadable

/-- The environment with one more variable, unless it is set. -/
def define (env : Environment) (name value : String) : Environment :=
  if (env.value? name).isSome then env else env ++ [(name, value)]

/-- A variable was to get a value that none can have. -/
structure Unsettable where
  name : String
deriving DecidableEq, Repr

/-- May a variable that is not set get this value?  Values end at a NUL. -/
def isSettable (value : String) : Bool := !value.toList.contains (Char.ofNat 0)

/-- The environment with what lines say. -/
def applyLines (env : Environment) : List (Option (List Char)) → Except Unsettable Environment
  | [] => .ok env
  | none :: _ => .ok env
  | some line :: lines =>
    match Statement.ofLine env line with
    | .nothing => applyLines env lines
    | .assignment name value =>
      if (env.value? name).isNone && !isSettable value then .error ⟨name⟩
      else applyLines (define env name value) lines
    | .unreadable => .ok env

/-- A text without a byte order mark in front. -/
def withoutMark : List Char → List Char
  | c :: cs => if c.toNat = 0xfeff then cs else c :: cs
  | [] => []

/-- **The environment with what a file says.** -/
def apply (env : Environment) (text : String) : Except Unsettable Environment :=
  applyLines env (logicalLines .bare [] (physicalLines (withoutMark text.toList)))

/-- A variable that is set keeps its value. -/
theorem value?_define (env : Environment) (name value other : String)
    (h : (env.value? other).isSome) : (define env name value).value? other = env.value? other := by
  unfold define
  split
  · rfl
  · unfold Environment.value? at h ⊢
    rw [List.lookup_append]
    cases hl : env.lookup other
    · simp [hl] at h
    · rfl

end Barogrid.EnvironmentFile
