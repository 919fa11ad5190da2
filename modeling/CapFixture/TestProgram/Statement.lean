import CapFixture.TestProgram.CType

/-!
# Statements of test programs

A test writes the fields of one layout into a fresh buffer, moves the pointer, and reads the
fields of another layout back. Capabilities are written as `hello` and integers as `value`.

## Main definitions

- `Value` — what is written and compared with
- `Place` — a field as the programs access it
- `Statement` — a statement of a test
- `Scenario` — what a test writes and reads, with its statements
-/

namespace CapFixture.TestProgram

/-- What the tests write and compare with: the pointer `hello`, or the fill byte `value`. -/
inductive Value where
  | hello
  | value
  deriving DecidableEq, Repr, Inhabited

def Value.name : Value → String
  | hello => "hello"
  | value => "value"

/-- A field as the programs access it: its type and its offset in the buffer. -/
structure Place where
  type : CType
  offset : Nat
  deriving DecidableEq, Repr, Inhabited

/-- A statement of a test. -/
inductive Statement where
  /-- Sets `buf` to so many fresh bytes, through `opaque` if so asked. -/
  | allocate (bytes : Nat) (hidden : Bool)
  /-- Writes the value to the buffer, as one of the type of the place. -/
  | store (place : Place) (content : Value)
  /-- Moves `buf`, through `opaque` if so asked. -/
  | shift (displacement : Int) (hidden : Bool)
  /-- Declares the variable of this index and reads it from the buffer. -/
  | load (index : Nat) (place : Place)
  /-- Asserts that the variable of this index points to the text of `hello`, or that it equals
  `value`. -/
  | check (index : Nat) (expected : Value)
  deriving DecidableEq, Repr

/-- Whether the pointer goes through `opaque`, which the compiler cannot see through, after the
allocation and before the reads. -/
structure Opacity where
  first : Bool
  second : Bool
  deriving DecidableEq, Repr

namespace Opacity

/-- All four, in the order of the tests. -/
def all : List Opacity := [⟨true, true⟩, ⟨true, false⟩, ⟨false, true⟩, ⟨false, false⟩]

/-- What the name of a test ends in. -/
def suffix : Opacity → String
  | ⟨true, true⟩ => ""
  | ⟨true, false⟩ => "_no2ndopaque"
  | ⟨false, true⟩ => "_no1stopaque"
  | ⟨false, false⟩ => "_noopaque"

end Opacity

def Place.ofField (f : Field) : Except Fault Place := do
  return ⟨← f.cType, f.offset⟩

namespace Statement

/-- The statement that writes a field. -/
def storeOf (f : Field) : Except Fault Statement :=
  let content : Value := match f.kind with
    | .ptr => .hello
    | _ => .value
  return .store (← Place.ofField f) content

/-- The assertion about a field that has been read into the variable of this index. -/
def checkOf (index : Nat) (f : Field) : Statement :=
  match f.kind with
  | .ptr => .check index .hello
  | _ => .check index .value

end Statement

/-- What a test writes, by how much it moves the pointer, and what it reads. -/
structure Scenario where
  written : Layout
  read : Layout
  displacement : Int
  opacity : Opacity
  deriving DecidableEq, Repr

/-- The statements of a test, if its buffer has a size and every field has a C type. -/
def Scenario.statements (s : Scenario) : Except Fault (List Statement) := do
  let total ← s.written.wordTotal
  let stores ← s.written.fields.mapM Statement.storeOf
  let loads ← s.read.fields.mapM Place.ofField
  return .allocate total s.opacity.first :: stores ++
    .shift s.displacement s.opacity.second :: loads.mapIdx .load ++
    s.read.fields.mapIdx Statement.checkOf

namespace Statement

private def hide (hidden : Bool) : String := if hidden then "opaque" else ""

/-- The field as an expression. -/
def access (place : Place) : String :=
  "*(" ++ place.type.name ++ "*)(buf + " ++ toString place.offset ++ ")"

def variableName (index : Nat) : String := "f" ++ toString index

def render : Statement → String
  | allocate bytes hidden =>
    "char* buf = " ++ hide hidden ++ "(malloc(" ++ toString bytes ++ "));"
  | store place content => access place ++ " = " ++ content.name ++ ";"
  | shift displacement hidden =>
    "buf = (char*)" ++ hide hidden ++ "(buf) + " ++ toString displacement ++ ";"
  | load index place =>
    place.type.name ++ " " ++ variableName index ++ " = " ++ access place ++ ";"
  | check index .hello => "ZASSERT(!strcmp(" ++ variableName index ++ ", \"hello\"));"
  | check index .value => "ZASSERT(" ++ variableName index ++ " == value);"

end Statement

end CapFixture.TestProgram
