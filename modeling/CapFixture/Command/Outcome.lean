/-!
# Outcomes

How a run of the program ends.

## Main definitions

- `Failure` — what a run could not do and why
- `Outcome` — the exit status and what is printed
-/

namespace CapFixture.Command

/-- What could not be done, and why, the nearest cause first. -/
structure Failure where
  attempt : String
  causes : List String
  deriving DecidableEq, Repr

namespace Failure

/-- A cause, of which all lines but the first are indented so far. -/
private def indentedCause (spaces : Nat) (cause : String) : String :=
  ("\n" ++ "".pushn ' ' spaces).intercalate (cause.splitOn "\n")

/-- The causes are numbered if there is more than one. -/
private def causeLines : List String → List String
  | [cause] => ["    " ++ indentedCause 4 cause]
  | causes => causes.mapIdx fun index cause =>
      "    " ++ toString index ++ ": " ++ indentedCause 7 cause

def render (f : Failure) : String :=
  if f.causes.isEmpty then "Error: " ++ f.attempt ++ "\n"
  else "Error: " ++ f.attempt ++ "\n\nCaused by:\n" ++
    String.join ((causeLines f.causes).map (· ++ "\n"))

end Failure

/-- How a run ends. -/
structure Outcome where
  status : Nat
  output : String
  errors : String
  deriving DecidableEq, Repr

namespace Outcome

def success (output : String) : Outcome := ⟨0, output, ""⟩

def failure (f : Failure) : Outcome := ⟨1, "", f.render⟩

def ofResult : Except Failure String → Outcome
  | .ok output => success output
  | .error f => failure f

end Outcome

end CapFixture.Command
