import QuerySynth.Command.Run

/-!
# The program

Runs on the file system of the machine.
-/

namespace QuerySynth

/-- The kind of failure that the system reports. -/
def FileError.ofSystem : IO.Error → FileError
  | .noFileOrDirectory .. => .missing
  | .alreadyExists .. => .alreadyThere
  | .inappropriateType _ 20 _ => .notDirectory
  | .inappropriateType _ 21 _ => .isDirectory
  | cause => .other (toString cause)

/-- The outcome of a file operation. -/
def attempt {α : Type} (act : IO α) : IO (Except FileError α) := do
  match ← act.toBaseIO with
  | .ok a => return .ok a
  | .error cause => return .error (.ofSystem cause)

instance : Files IO where
  read path := do
    match ← attempt (IO.FS.readBinFile path) with
    | .error cause => return .error cause
    | .ok bytes =>
        match String.fromUTF8? bytes with
        | some text => return .ok text
        | none => return .error .notText
  present path := do
    match ← attempt (IO.FS.Handle.mk path .read) with
    | .error .missing | .error .notDirectory => return false
    | _ => return true
  isDirectory path := return (← attempt (IO.FS.Handle.mk (path ++ "/.") .read)).toBool
  createDir path := attempt (IO.FS.createDir path)
  append path text := attempt do
    let handle ← IO.FS.Handle.mk path .append
    handle.putStr text
    handle.flush

end QuerySynth

/-- Answers the arguments of the command line. -/
def main (arguments : List String) : IO UInt32 := do
  let report ← QuerySynth.runArguments (m := IO) arguments
  IO.print report.output
  IO.eprint report.errors
  return report.code
