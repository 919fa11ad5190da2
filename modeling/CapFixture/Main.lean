import CapFixture.Command.Standard

/-!
# The command line program
-/

namespace CapFixture

/-- The number of an error, which some calls report with its sign turned. -/
private def errorNumber (code : UInt32) : UInt32 := if code < 4096 then code else 0 - code

/-- The error that the system reports. -/
private def FileError.ofIO (error : IO.Error) : FileError :=
  match error with
  | .noFileOrDirectory .. => .notFound
  | .alreadyExists .. => .alreadyExists
  | .permissionDenied .. => .other "Permission denied (os error 13)"
  | .userError _ => .other "stream did not contain valid UTF-8"
  | .inappropriateType _ code _ =>
    if errorNumber code = 20 then .notADirectory
    else if errorNumber code = 21 then .isADirectory
    else .other (toString error)
  | .invalidArgument _ code _ =>
    if errorNumber code = 36 then .nameTooLong else .other (toString error)
  | _ => .other (toString error)

private def attempt {α : Type} (action : IO α) : IO (Except FileError α) := do
  return (← action.toBaseIO).mapError FileError.ofIO

/-- The files of the system. -/
def systemAccess : FileAccess IO where
  read p := attempt (IO.FS.readFile p.render)
  write p contents := attempt (IO.FS.writeFile p.render contents)
  makeDirectory p := attempt (IO.FS.createDir p.render)
  isDirectory p := do
    match ← (IO.FS.realPath p.render).toBaseIO with
    | .ok path => path.isDir
    | .error _ => return false

end CapFixture

def main (args : List String) : IO UInt32 := do
  let outcome ← CapFixture.Command.run .standard CapFixture.systemAccess args
  IO.print outcome.output
  IO.eprint outcome.errors
  return outcome.status.toUInt32
