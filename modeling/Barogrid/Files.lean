import Barogrid.Failure

/-!
# Files

What reading or writing a file can come to, apart from its content.  The operations of the library
do not read files themselves; they are given the bytes, or the reason why there are none.
-/

namespace Barogrid

/-- Why a file could not be read or written. -/
inductive FileFault where
  /-- There is no such file, or a directory on the way to it is missing. -/
  | missing
  | denied
  | notDirectory
  | isDirectory
  | nameTooLong
  /-- The bytes are not text in UTF-8. -/
  | notText
  /-- Anything else, with its text. -/
  | other (text : String)
deriving DecidableEq, Repr

namespace FileFault

/-- The text of an error of the operating system. -/
def systemText (text : String) (code : Nat) : String := s!"{text} (os error {code})"

/-- The text of a fault. -/
def message : FileFault → String
  | .missing => systemText "No such file or directory" 2
  | .denied => systemText "Permission denied" 13
  | .notDirectory => systemText "Not a directory" 20
  | .isDirectory => systemText "Is a directory" 21
  | .nameTooLong => systemText "File name too long" 36
  | .notText => "stream did not contain valid UTF-8"
  | .other text => text

/-- The fault that an error number of the operating system stands for. -/
def ofCode (code : Nat) (text : String) : FileFault :=
  match code with
  | 2 => .missing
  | 13 => .denied
  | 20 => .notDirectory
  | 21 => .isDirectory
  | 36 => .nameTooLong
  | _ => .other (systemText text code)

/-- A fault, as a failure. -/
def failure (fault : FileFault) : Failure := .file fault.message

end FileFault

/-- What reading a file comes to. -/
abbrev FileContent := Except FileFault ByteArray

namespace FileContent

/-- The text of a file. -/
def text (content : FileContent) : Except Failure String :=
  match content with
  | .error fault => .error fault.failure
  | .ok bytes =>
    match String.fromUTF8? bytes with
    | some s => .ok s
    | none => .error FileFault.notText.failure

end FileContent

/-- The files that there are, by path. -/
abbrev Files := String → FileContent

end Barogrid
