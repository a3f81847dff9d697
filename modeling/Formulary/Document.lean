import Formulary.Arithmetic.Basic
import Formulary.Tape.Basic

/-!
# Documents and errors

A document is what a path leads to: bytes, or something that cannot be opened or not be read.  It is
opened as a tape, whose reading may then fail, or read at once, which needs it to be valid UTF-8.
-/

namespace Formulary

/-- Why a file cannot be used. -/
inductive FileFault where
  | notFound
  | isDirectory
  | invalidUtf8
  | other (reason : String)
deriving DecidableEq

/-- The text of a fault. -/
def FileFault.message : FileFault → String
  | .notFound => "No such file or directory (os error 2)"
  | .isDirectory => "Is a directory (os error 21)"
  | .invalidUtf8 => "stream did not contain valid UTF-8"
  | .other reason => reason

/-- Why there is no answer. -/
inductive Error where
  | unparseable
  | arithmetic (fault : Arithmetic.Fault)
  | environmentUnreadable (path : String) (fault : FileFault)
  | inputUnopened (path : String) (fault : FileFault)
deriving DecidableEq

namespace Error

/-- The text of the fault behind an error. -/
def cause : Error → Option String
  | .unparseable => none
  | .arithmetic fault => some fault.message
  | .environmentUnreadable _ fault => some fault.message
  | .inputUnopened _ fault => some fault.message

/-- The text of an error. -/
def message : Error → String
  | .unparseable => "Could not parse input"
  | .arithmetic fault => "Arithmetic error: " ++ fault.message
  | .environmentUnreadable path fault =>
    "Cannot read environment file " ++ path ++ ": " ++ fault.message
  | .inputUnopened path fault => "Cannot open input " ++ path ++ ": " ++ fault.message

end Error

/-- What a path leads to: the bytes of a file, a thing that can be opened but not be read, or
nothing that can be opened. -/
inductive Document where
  | file (bytes : List UInt8)
  | unreadable (fault : FileFault)
  | unopened (fault : FileFault)

namespace Document

/-- A directory can be opened but not be read. -/
def directory : Document := .unreadable .isDirectory

/-- Nothing. -/
def missing : Document := .unopened .notFound

/-- The tape of a document, which is read as it is needed. -/
def tape (path : String) : Document → Except Error (Cursor × Tape)
  | .file bytes => .ok (Tape.ofSupply (.lines (.ofBytes bytes none)))
  | .unreadable fault => .ok (Tape.ofSupply (.lines (.ofBytes [] (some fault.message))))
  | .unopened fault => .error (.inputUnopened path fault)

/-- The text of a document, read at once. -/
def text : Document → Except FileFault String
  | .file bytes =>
    match String.fromUTF8? bytes.toByteArray with
    | some text => .ok text
    | none => .error .invalidUtf8
  | .unreadable fault => .error fault
  | .unopened fault => .error fault

end Document

end Formulary
