import CapFixture.Variant

/-!
# Variants as records

Variants are kept as records, which a library writes and reads.

## Main definitions

- `Variant.record` — the shortest record of a variant
- `Variant.Codec` — what a library does with the records of variants
-/

namespace CapFixture.Variant

/-- The numbers in brackets. -/
def numberList (ns : List Nat) : String := "[" ++ ",".intercalate (ns.map toString) ++ "]"

/-- The shortest record of a variant, with its name spelled like this between the quotes. -/
def record (v : Variant) (name : List Char) : String :=
  "(name:\"" ++ .ofList name ++
  "\",byte_limit:" ++ toString v.byteLimit ++
  ",int_sizes:" ++ numberList v.intSizes ++
  ",padding_amounts:" ++ numberList v.paddingAmounts ++
  ",capability_width:" ++ toString v.capabilityWidth ++
  ",recursion_step:" ++ toString v.recursionStep ++ ")"

/-- Writes variants as records and reads them. -/
structure Codec where
  write : Variant → String
  /-- The variant in a record, or what is wrong with the record. -/
  read : String → Except String Variant

end CapFixture.Variant
