import CapFixture.Files.Path

/-!
# Access to files

What the program does with files, in any monad that offers it.

## Main definitions

- `FileError` — why an access fails
- `FileAccess` — reading, writing and making directories
- `FileAccess.writeAll` — writes generated files below a directory
-/

namespace CapFixture

/-- Why an access to a file fails. -/
inductive FileError where
  | notFound
  | alreadyExists
  | notADirectory
  | isADirectory
  | nameTooLong
  | other (description : String)
  deriving DecidableEq, Repr

namespace FileError

/-- The description that the system gives, with its number for the error. -/
def message : FileError → String
  | notFound => "No such file or directory (os error 2)"
  | alreadyExists => "File exists (os error 17)"
  | notADirectory => "Not a directory (os error 20)"
  | isADirectory => "Is a directory (os error 21)"
  | nameTooLong => "File name too long (os error 36)"
  | other description => description

end FileError

/-- A file below the directory that is written to. -/
structure OutputFile where
  path : String
  contents : String
  deriving DecidableEq, Repr, Inhabited

/-- The accesses that the program makes. -/
structure FileAccess (m : Type → Type) where
  read : Path → m (Except FileError String)
  /-- Makes a file with these contents, or replaces the contents of the file that is there. -/
  write : Path → String → m (Except FileError Unit)
  /-- Makes one directory, in a directory that is there. -/
  makeDirectory : Path → m (Except FileError Unit)
  isDirectory : Path → m Bool

namespace FileAccess

variable {m : Type → Type} [Monad m]

/-- Makes a directory and those above it that are missing. A directory that is already there is
fine, whatever the attempt to make it says. -/
def makeDirectories (access : FileAccess m) (p : Path) : m (Except FileError Unit) := do
  if p = .here then return .ok ()
  let tolerate (error : FileError) : m (Except FileError Unit) := do
    if ← access.isDirectory p then return .ok () else return .error error
  match ← access.makeDirectory p with
  | .ok () => return .ok ()
  | .error .notFound =>
    match _parent : p.parent? with
    | none => return .error (.other "failed to create whole tree")
    | some parent =>
      match ← makeDirectories access parent with
      | .error error => return .error error
      | .ok () =>
        match ← access.makeDirectory p with
        | .ok () => return .ok ()
        | .error error => tolerate error
  | .error error => tolerate error
termination_by p.steps.length
decreasing_by exact Path.length_steps_of_parent? _parent

/-- Writes a file below a directory, with all directories that it needs. -/
def writeBelow (access : FileAccess m) (root : Path) (file : OutputFile) :
    m (Except FileError Unit) := do
  let path := root.join (.ofString file.path)
  let made ← match path.parent? with
    | none => pure (.ok ())
    | some parent => access.makeDirectories parent
  match made with
  | .error error => return .error error
  | .ok () => access.write path file.contents

/-- Writes files below a directory one after the other, up to the first failure. -/
def writeAll (access : FileAccess m) (root : Path) : List OutputFile → m (Except FileError Unit)
  | [] => return .ok ()
  | file :: rest => do
    match ← access.writeBelow root file with
    | .error error => return .error error
    | .ok () => access.writeAll root rest

end FileAccess

end CapFixture
