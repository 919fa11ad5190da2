import CapFixture.Fault
import CapFixture.Layout

/-!
# C types of fields

The generated programs read and write each field through a pointer to its C type. A capability of
any width is a `char*`, and padding has no type.
-/

namespace CapFixture

/-- A C type that a field can have. -/
inductive CType where
  | int8
  | int16
  | int32
  | int64
  | int128
  | charPtr
  deriving DecidableEq, Repr, Inhabited

def CType.name : CType → String
  | int8 => "int8_t"
  | int16 => "int16_t"
  | int32 => "int32_t"
  | int64 => "int64_t"
  | int128 => "__int128"
  | charPtr => "char*"

/-- How many bytes a value of the type takes, where a capability has the given width. -/
def CType.bytes (capabilityWidth : Nat) : CType → Nat
  | int8 => 1
  | int16 => 2
  | int32 => 4
  | int64 => 8
  | int128 => 16
  | charPtr => capabilityWidth

/-- The C type of a field. -/
def Field.cType (f : Field) : Except Fault CType :=
  match f.kind, f.size with
  | .ptr, _ => .ok .charPtr
  | .int, 1 => .ok .int8
  | .int, 2 => .ok .int16
  | .int, 4 => .ok .int32
  | .int, 8 => .ok .int64
  | .int, 16 => .ok .int128
  | kind, size => .error (.noCType kind size)

end CapFixture
