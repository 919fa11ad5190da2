/-!
# Signatures

A signature describes one native entry point: its name, what it returns and takes, whether it can
throw, and which symbols have to be defined for it to exist.

## Main definitions

- `ValueType` — a type that can cross the native call boundary
- `Argument`, `Result` — what an entry point takes and returns
- `Signature` — one entry point
-/

namespace CapFixture

/-- A type that can cross the native call boundary. -/
inductive ValueType where
  | filcPtr
  | int
  | unsigned
  | long
  | unsignedLong
  | sizeT
  | double
  | bool
  | ssizeT
  | unsignedShort
  | unsignedLongLong
  | longLong
  | modeT
  deriving DecidableEq, Repr, Inhabited

namespace ValueType

def all : List ValueType :=
  [ filcPtr, int, unsigned, long, unsignedLong, sizeT, double, bool, ssizeT, unsignedShort,
    unsignedLongLong, longLong, modeT ]

/-- The spelling in C. -/
def name : ValueType → String
  | filcPtr => "filc_ptr"
  | int => "int"
  | unsigned => "unsigned"
  | long => "long"
  | unsignedLong => "unsigned long"
  | sizeT => "size_t"
  | double => "double"
  | bool => "bool"
  | ssizeT => "ssize_t"
  | unsignedShort => "unsigned short"
  | unsignedLongLong => "unsigned long long"
  | longLong => "long long"
  | modeT => "pizlonated_mode_t"

/-- The type with this spelling. -/
def ofName? (s : String) : Option ValueType := all.find? (·.name == s)

theorem mem_all (t : ValueType) : t ∈ all := by
  cases t <;> decide

theorem ofName?_name (t : ValueType) : ofName? t.name = some t := by
  cases t <;> decide

/-- The spelling inside the names of runtime helpers, in one word. -/
def helperName (t : ValueType) : String :=
  if t = filcPtr then "ptr" else t.name.map fun c => if c = ' ' then '_' else c

end ValueType

/-- What an entry point takes: a value, or any values after the others. -/
inductive Argument where
  | value (type : ValueType)
  | variadic
  deriving DecidableEq, Repr, Inhabited

/-- What an entry point returns. -/
inductive Result where
  | void
  | value (type : ValueType)
  deriving DecidableEq, Repr, Inhabited

namespace Argument

/-- The spelling in a table. -/
def name : Argument → String
  | value type => type.name
  | variadic => "..."

/-- The argument with this spelling. -/
def ofName? (s : String) : Option Argument :=
  if s = "..." then some variadic else (ValueType.ofName? s).map value

end Argument

namespace Result

/-- The spelling in C. -/
def name : Result → String
  | void => "void"
  | value type => type.name

/-- The result with this spelling. -/
def ofName? (s : String) : Option Result :=
  if s = "void" then some void else (ValueType.ofName? s).map value

def helperName : Result → String
  | void => "void"
  | value type => type.helperName

theorem ofName?_name (r : Result) : ofName? r.name = some r := by
  cases r with
  | void => rfl
  | value type => cases type <;> decide

end Result

/-- One native entry point. -/
structure Signature where
  name : String
  result : Result
  throws : Bool
  arguments : List Argument
  /-- The symbols that all have to be defined, outermost block first. -/
  defines : List String
  deriving DecidableEq, Repr, Inhabited

namespace Signature

/-- The return type of the native function, which tells a thrown exception apart. -/
def nativeResult (s : Signature) : String :=
  if s.throws then "filc_exception_and_" ++ s.result.helperName else s.result.name

def pointerCount (s : Signature) : Nat := s.arguments.count (.value .filcPtr)

/-- Whether the last argument takes any values. -/
def isVariadic (s : Signature) : Bool := s.arguments.getLast? == some .variadic

end Signature

end CapFixture
