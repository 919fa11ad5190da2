import CapFixture.Forwarder.Guard
import CapFixture.Signature

/-!
# The header

The header declares one native function for each signature. It takes the calling thread, then the
arguments, and the rest of the argument buffer where a variadic argument stands.

## Main definitions

- `Prototype` — the declared function, made by `Prototype.ofSignature`
- `header` — the text of the header
-/

namespace CapFixture.Forwarder

structure Parameter where
  type : String
  name : String
  deriving DecidableEq, Repr

/-- The declaration of a native function. -/
structure Prototype where
  result : String
  function : String
  parameters : List Parameter
  deriving DecidableEq, Repr

/-- The function that implements the entry point of this name. -/
def nativeName (name : String) : String := "filc_native_" ++ name

/-- The variable that holds the argument at an index. -/
def argumentName (index : Nat) : String := "arg" ++ toString index

/-- The variable that is the cursor into the argument buffer. -/
def cursorName : String := "args"

def threadName : String := "my_thread"

namespace Prototype

def parameter (index : Nat) : Argument → Parameter
  | .value type => ⟨type.name, argumentName index⟩
  | .variadic => ⟨"filc_ptr", cursorName⟩

def ofSignature (s : Signature) : Prototype where
  result := s.nativeResult
  function := nativeName s.name
  parameters := ⟨"filc_thread*", threadName⟩ :: s.arguments.mapIdx parameter

def render (p : Prototype) : String :=
  p.result ++ " " ++ p.function ++ "(" ++
    ", ".intercalate (p.parameters.map fun q => q.type ++ " " ++ q.name) ++ ");"

end Prototype

/-- The guarded prototypes, without what surrounds them. -/
def prototypes (ss : List Signature) : Code :=
  ss.flatMap fun s =>
    guarded s.defines (Code.line ("PAS_API " ++ (Prototype.ofSignature s).render))

def headerCode (ss : List Signature) : Code :=
  Code.line banner ++
  Code.line "#ifndef FILC_NATIVE_H" ++
  Code.line "#define FILC_NATIVE_H" ++
  Code.line "#include \"filc_runtime.h\"" ++
  prototypes ss ++
  Code.line "#endif /* FILC_NATIVE_H */"

/-- The text of the header. -/
def header (ss : List Signature) : String := (headerCode ss).render

end CapFixture.Forwarder
