import CapFixture.Forwarder.Prototype

/-!
# Thunks

A thunk pulls the arguments of a call out of the argument buffer, keeps the objects they point to
alive, calls the native function and stores its result.

## Main definitions

- `Thunk.Statement` — what a thunk does once its frame is set up
- `Thunk.ofSignature` — the thunk of a signature
- `Thunk.code` — its text
-/

namespace CapFixture.Forwarder

namespace Thunk

/-- A statement of a thunk whose frame is set up. -/
inductive Statement where
  /-- Keeps the object behind a pointer alive in a slot of the frame. -/
  | track (slot : Nat) (pointer : String)
  /-- Declares the variable of an argument and fills it from the buffer. -/
  | pull (index : Nat) (type : ValueType)
  /-- Makes sure that a result of this type can be stored. -/
  | checkStore (type : ValueType)
  /-- Calls a function, and declares `result` with the given type to hold what it returns. -/
  | call (resultType : Option String) (function : String) (arguments : List String)
  /-- Stores a value of this type as the result. -/
  | store (type : ValueType) (value : String)
  /-- Leaves the place for the result as it is. -/
  | ignoreStore
  | popFrames
  | giveBack (value : String)
  deriving DecidableEq, Repr

end Thunk

/-- The thunk of an entry point: its frame has room for so many objects. -/
structure Thunk where
  name : String
  slots : Nat
  body : List Thunk.Statement
  deriving DecidableEq, Repr

namespace Thunk

/-- The runtime function that takes a value of the type out of the buffer. -/
def cursorGetter (type : ValueType) : String :=
  if type = .filcPtr then "filc_ptr_get_next_ptr_with_manual_tracking"
  else "filc_ptr_get_next_" ++ type.helperName

/-- Pulls the arguments from an index on. Each pointer is tracked in the next free slot as soon
as it is pulled, and variadic arguments stay in the buffer for the callee. -/
def pulls (index slot : Nat) : List Argument → List Statement
  | [] => []
  | .value .filcPtr :: rest =>
    .pull index .filcPtr :: .track slot (argumentName index) :: pulls (index + 1) (slot + 1) rest
  | .value type :: rest => .pull index type :: pulls (index + 1) slot rest
  | .variadic :: rest => pulls (index + 1) slot rest

/-- What is passed to the native function for the argument at an index. -/
def passed (index : Nat) : Argument → String
  | .value _ => argumentName index
  | .variadic => cursorName

/-- Calls the native function of a signature. -/
def callNative (s : Signature) (resultType : Option String) : Statement :=
  .call resultType (nativeName s.name) (threadName :: s.arguments.mapIdx passed)

/-- Calls the native function and stores what it returns. -/
def callAndStore (s : Signature) : List Statement :=
  match s.result with
  | .void =>
    [callNative s (if s.throws then some s.nativeResult else none), .ignoreStore]
  | .value type =>
    [.checkStore type, callNative s (some s.nativeResult),
      .store type (if s.throws then "result.value" else "result")]

/-- Slot 0 keeps the argument buffer itself alive. -/
def ofSignature (s : Signature) : Thunk where
  name := s.name
  slots := 1 + s.pointerCount
  body :=
    .track 0 cursorName :: pulls 0 1 s.arguments ++ callAndStore s ++
      [.popFrames, .giveBack (if s.throws then "result.has_exception" else "false")]

def Statement.lines : Statement → List String
  | track slot pointer =>
    ["frame->objects[" ++ toString slot ++ "] = filc_ptr_object(" ++ pointer ++ ");"]
  | pull index type =>
    [type.name ++ " " ++ argumentName index ++ " = " ++ cursorGetter type ++
      "(&" ++ cursorName ++ ");"]
  | checkStore type =>
    if type = .filcPtr then ["filc_check_write_ptr(rets, NULL);"]
    else ["filc_check_write_int(rets, sizeof(" ++ type.name ++ "), NULL);"]
  | call resultType function arguments =>
    let target := match resultType with
      | none => ""
      | some type => type ++ " result = "
    [target ++ function ++ "(" ++ ", ".intercalate arguments ++ ");"]
  | store type value => ["*(" ++ type.name ++ "*)filc_ptr_ptr(rets) = " ++ value ++ ";"]
  | ignoreStore => ["PAS_UNUSED_PARAM(rets);"]
  | popFrames =>
    ["filc_pop_native_frame(my_thread, &native_frame);", "filc_pop_frame(my_thread, frame);"]
  | giveBack value => ["return " ++ value ++ ";"]

/-- The name of the thunk as a C function. -/
def functionName (name : String) : String := "native_thunk_" ++ name

/-- Declares the frame and makes it the thread's topmost one. -/
def setUp (t : Thunk) : Code :=
  Code.line ("FILC_DEFINE_RUNTIME_ORIGIN(origin, \"" ++ t.name ++ "\", " ++
    toString t.slots ++ ");") ++
  Code.line "struct \x7b" ++
  Code.indented
    (Code.line "FILC_FRAME_BODY;" ++
     Code.line ("filc_object* objects[" ++ toString t.slots ++ "];")) ++
  Code.line "\x7d actual_frame;" ++
  Code.line "pas_zero_memory(&actual_frame, sizeof(actual_frame));" ++
  Code.line "filc_frame* frame = (filc_frame*)&actual_frame;" ++
  Code.line "frame->origin = &origin;" ++
  Code.line "filc_native_frame native_frame;" ++
  Code.line "filc_push_frame(my_thread, frame);" ++
  Code.line "filc_push_native_frame(my_thread, &native_frame);"

def code (t : Thunk) : Code :=
  Code.line ("static bool " ++ functionName t.name ++ "(PIZLONATED_SIGNATURE)") ++
  Code.block (setUp t ++ t.body.flatMap fun statement => statement.lines.flatMap Code.line)

end Thunk

end CapFixture.Forwarder
