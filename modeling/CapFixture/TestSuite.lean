import CapFixture.Files.Access
import CapFixture.Mutation
import CapFixture.TestProgram.Program

/-!
# Test suites

The tests of a list of layouts come in three families: round trips, reads far outside the buffer,
and type confusions. Each test is a program and a manifest that says how it should end.

## Main definitions

- `TestCase` — a named program with its expectation, and its two files
- `TestSuite.roundTrips`, `TestSuite.outOfBounds`, `TestSuite.confusions` — the families
- `TestSuite.all` — the tests of all families
-/

namespace CapFixture

open TestProgram

/-- How a program should end. -/
inductive Expectation where
  | success
  | failure (report : String)
  deriving DecidableEq, Repr

namespace Expectation

/-- What the runtime reports about an access that it refuses. -/
def safetyError : String := "filc safety error"

/-- What the runtime reports about an assertion that does not hold. -/
def userError : String := "filc user error"

def manifest : Expectation → String
  | success => "return: success\nslow: true"
  | failure report => "return: failure\noutput-includes: \"" ++ report ++ "\""

end Expectation

structure TestCase where
  name : String
  program : Program
  expectation : Expectation
  deriving DecidableEq, Repr

/-- The program and the manifest, in a directory of their own. -/
def TestCase.files (t : TestCase) : List OutputFile :=
  [ ⟨t.name ++ "/" ++ t.name ++ ".c", t.program.render⟩,
    ⟨t.name ++ "/manifest", t.expectation.manifest⟩ ]

namespace TestSuite

/-- How many layouts share a program of round trips. -/
def groupSize : Nat := 10

/-- The layouts in groups, all full but perhaps the last. -/
def groups (ls : List Layout) : List (List Layout) :=
  match ls with
  | [] => []
  | l :: rest => (l :: rest.take (groupSize - 1)) :: groups (rest.drop (groupSize - 1))
termination_by ls.length
decreasing_by
  simp only [List.length_drop, List.length_cons]
  omega

/-- What is read back after a layout was written. Capabilities next to integers must not disturb
them, so where there are both the integers are also read alone. -/
def readBack (l : Layout) : List Layout :=
  if l.has .ptr && l.has .int then [l, l.without .ptr] else [l]

/-- The round trips of one layout. -/
def roundTripScenarios (l : Layout) : List Scenario :=
  Opacity.all.flatMap fun opacity =>
    (readBack l).map fun read => ⟨l, read, 0, opacity⟩

/-- One program for each group of layouts. -/
def roundTrips (ls : List Layout) : Except Fault (List TestCase) :=
  (groups ls).zipIdx.mapM fun (group, index) => do
    let tests ← (group.flatMap roundTripScenarios).mapM Scenario.statements
    return ⟨"combostorm_success" ++ toString index, .several tests, .success⟩

/-- A program of one test that fails. -/
def failing (name report : String) (s : Scenario) : Except Fault TestCase := do
  return ⟨name, .single (← s.statements), .failure report⟩

/-- Far enough from any buffer of the programs that every access misses it. -/
def displacement : Int := 0x6660

/-- Reads far to the left and to the right of the buffer. -/
def outOfBounds (ls : List Layout) : Except Fault (List TestCase) := do
  let tests ← ls.zipIdx.mapM fun (l, index) =>
    Opacity.all.mapM fun opacity =>
      [("oobleft", -displacement), ("oobright", displacement)].mapM fun (side, shift) =>
        failing ("combostorm_" ++ side ++ toString index ++ opacity.suffix)
          Expectation.safetyError ⟨l, l, shift, opacity⟩
  return tests.flatten.flatten

/-- Reads a capability where integers were written, which is a safety error, and reads integers
where a capability was written, which fails an assertion. -/
def confusionPair (name : String) (l confused : Layout) (opacity : Opacity) :
    Except Fault (List TestCase) := do
  let read ← failing (name ++ "_read" ++ opacity.suffix) Expectation.safetyError
    ⟨l, confused, 0, opacity⟩
  let write ← failing (name ++ "_write" ++ opacity.suffix) Expectation.userError
    ⟨confused, l, 0, opacity⟩
  return [read, write]

/-- The type confusions of every layout. -/
def confusions (ls : List Layout) (v : Variant) : Except Fault (List TestCase) := do
  let tests ← ls.zipIdx.mapM fun (l, index) => do
    (← l.confusions v).zipIdx.mapM fun (confused, confusedIndex) =>
      Opacity.all.mapM fun opacity =>
        confusionPair
          ("combostorm_badtype" ++ toString index ++ "_" ++ toString confusedIndex)
          l confused opacity
  return tests.flatten.flatten.flatten

/-- The tests of all families, where a layout's number is its place in the list. -/
def all (ls : List Layout) (v : Variant) : Except Fault (List TestCase) := do
  return (← roundTrips ls) ++ (← outOfBounds ls) ++ (← confusions ls v)

/-- The files of the tests in their order. -/
def files (tests : List TestCase) : List OutputFile := tests.flatMap TestCase.files

end TestSuite

end CapFixture
