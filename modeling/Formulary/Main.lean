import Formulary.Command
import Formulary.Json.Grammar

/-!
# The program

Runs the command that the first word names on the words after it.
-/

namespace Formulary

/-- The fault that an error of the operating system comes to. -/
def FileFault.ofError : IO.Error → FileFault
  | .noFileOrDirectory .. => .notFound
  | .inappropriateType .. => .isDirectory
  | error => .other (toString error)

/-- What `path` leads to. -/
def documentAt (path : String) : IO Document := do
  match ← (IO.FS.Handle.mk path .read).toBaseIO with
  | .error error => pure (.unopened (.ofError error))
  | .ok handle =>
    match ← handle.readBinToEnd.toBaseIO with
    | .error error => pure (.unreadable (.ofError error))
    | .ok bytes => pure (.file bytes.toList)

/-- The bytes of the standard input. -/
def standardInput : IO (List UInt8) := do
  let mut bytes := ByteArray.empty
  let stream ← IO.getStdin
  repeat
    let more ← stream.read 65536
    if more.isEmpty then break
    bytes := bytes ++ more
  pure bytes.toList

/-- The line of an event: its level, its message and its fields. -/
def Event.line (e : Event) : String :=
  let fields := e.fields.map fun (key, value) => key ++ "=" ++ value
  " ".intercalate (e.level.name :: e.message :: fields)

end Formulary

open Formulary in
/-- Answers `prop` and `calc`. -/
def main (args : List String) : IO UInt32 := do
  let response ← match args with
    | "prop" :: words =>
      Command.runProp Json.parse documentAt standardInput (Command.simplification none none words)
    | "calc" :: words => pure (Command.runCalc (Command.evaluation none words))
    | _ => pure .misused
  for event in response.log do
    if event.level = .warn then IO.eprintln event.line
  IO.print response.output
  IO.eprint response.complaint
  pure response.status.toUInt32
