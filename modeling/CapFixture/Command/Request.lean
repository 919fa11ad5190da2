import CapFixture.Variant

/-!
# Requests

What the program can be asked to do.

## Main definitions

- `Builtin`, `VariantChoice` — where a variant comes from
- `Request` — the tasks of the program
-/

namespace CapFixture.Command

/-- The variants that are built in. -/
inductive Builtin where
  | filc
  | wide
  deriving DecidableEq, Repr

namespace Builtin

def ofName? : String → Option Builtin
  | "filc" => some .filc
  | "wide" => some .wide
  | _ => none

def variant : Builtin → Variant
  | filc => .filc
  | wide => .wide

end Builtin

/-- A builtin variant, or a file that describes one. -/
structure VariantChoice where
  builtin : Builtin
  file : Option String
  deriving DecidableEq, Repr

inductive ForwarderKind where
  | header
  | source
  deriving DecidableEq, Repr

def ForwarderKind.ofName? : String → Option ForwarderKind
  | "header" => some .header
  | "source" => some .source
  | _ => none

/-- The tasks of the program. -/
inductive Request where
  /-- Prints the layouts, as a listing or as records. -/
  | layouts (variant : VariantChoice) (asRecords : Bool)
  /-- Writes the test programs of all layouts into a directory. -/
  | tests (variant : VariantChoice) (directory : String)
  /-- Writes the forwarders of a table, or of the native one, into a file. -/
  | forwarders (kind : ForwarderKind) (output : String) (table : Option String)
  deriving DecidableEq, Repr

end CapFixture.Command
