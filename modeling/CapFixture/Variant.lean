import CapFixture.Field

/-!
# Variants

A variant says which integer widths exist, how wide a capability is, and how far the enumeration
of layouts goes.
-/

namespace CapFixture

/-- The parameters of one enumeration. -/
structure Variant where
  name : String
  /-- The enumeration goes on until a layout ends past this many bytes. -/
  byteLimit : Nat
  intSizes : List Nat
  /-- The gaps that the grid puts between integers. -/
  paddingAmounts : List Nat
  capabilityWidth : Nat
  /-- The width of padding and integers in the search. -/
  recursionStep : Nat
  deriving DecidableEq, Repr, Inhabited

namespace Variant

/-- Eight byte capabilities. -/
def filc : Variant where
  name := "filc"
  byteLimit := 24
  intSizes := [1, 2, 4, 8]
  paddingAmounts := [0, 1, 5, 7, 8]
  capabilityWidth := 8
  recursionStep := 8

/-- Sixteen byte capabilities, searched in steps of half their width. -/
def wide : Variant where
  name := "wide"
  byteLimit := 32
  intSizes := [1, 2, 4, 8, 16]
  paddingAmounts := [0, 1, 5, 7, 8, 15, 16]
  capabilityWidth := 16
  recursionStep := 8

/-- Whether a field of this kind can have this size. -/
def allows (v : Variant) : Kind → Nat → Bool
  | .int, size => v.intSizes.contains size
  | .ptr, size => size == v.capabilityWidth
  | .padding, size => size != 0

end Variant

end CapFixture
