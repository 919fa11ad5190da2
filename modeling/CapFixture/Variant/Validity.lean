import CapFixture.Variant

/-!
# Valid variants

The checks that a variant passes before layouts are enumerated for it. They bound the number of
layouts and make sure that every field of every layout has a C type. A variant that is loaded from a
text is checked as well.

## Main definitions

- `Variant.Defect` — a reason to refuse a variant
- `Variant.defect?` — the first defect, in the order of the checks
- `Variant.load` — the variant in a text, if it is valid
-/

namespace CapFixture.Variant

/-- The integer widths that have a C type. -/
def supportedWidths : List Nat := [1, 2, 4, 8, 16]

def maxByteLimit : Nat := 256

/-- How many steps the search may take before it passes the limit. -/
def maxDepth : Nat := 8

/-- A reason to refuse a variant. -/
inductive Defect where
  | zeroLimit
  | limitTooLarge (limit : Nat)
  | noIntSizes
  | unsupportedIntSize (size : Nat)
  | unsupportedCapability (width : Nat)
  | paddingPastLimit (amount : Nat)
  | stepNotAnInt (step : Nat)
  | tooDeep (limit step : Nat)
  deriving DecidableEq, Repr

/-- The first defect of a variant. The step is compared with the capability width because the
search advances by at least the smaller of the two. -/
def defect? (v : Variant) : Option Defect :=
  if v.byteLimit = 0 then some .zeroLimit
  else if maxByteLimit < v.byteLimit then some (.limitTooLarge v.byteLimit)
  else if v.intSizes.isEmpty then some .noIntSizes
  else if let some size := v.intSizes.find? (!supportedWidths.contains ·) then
    some (.unsupportedIntSize size)
  else if !supportedWidths.contains v.capabilityWidth then
    some (.unsupportedCapability v.capabilityWidth)
  else if let some amount := v.paddingAmounts.find? (v.byteLimit < ·) then
    some (.paddingPastLimit amount)
  else if !v.intSizes.contains v.recursionStep then some (.stepNotAnInt v.recursionStep)
  else
    let step := min v.recursionStep v.capabilityWidth
    if maxDepth < v.byteLimit / step then some (.tooDeep v.byteLimit step) else none

namespace Defect

private def widthList (widths : List Nat) : String :=
  "[" ++ ", ".intercalate (widths.map toString) ++ "]"

/-- What is wrong, without the variant's name. -/
def reason : Defect → String
  | zeroLimit => "byte limit must be positive"
  | limitTooLarge limit =>
    "byte limit " ++ toString limit ++ " is larger than " ++ toString maxByteLimit
  | noIntSizes => "at least one integer size is required"
  | unsupportedIntSize size =>
    "integer size " ++ toString size ++ " is not one of " ++ widthList supportedWidths
  | unsupportedCapability width =>
    "capability width " ++ toString width ++ " is not one of " ++ widthList supportedWidths
  | paddingPastLimit amount =>
    "padding amount " ++ toString amount ++ " is larger than the byte limit"
  | stepNotAnInt step =>
    "recursion step " ++ toString step ++ " is not one of the integer sizes"
  | tooDeep limit step =>
    "byte limit " ++ toString limit ++ " needs more than " ++ toString maxDepth ++ " steps of "
      ++ toString step ++ " bytes"

/-- The whole message about a variant of the given name. -/
def message (name : String) (d : Defect) : String :=
  "variant `" ++ name ++ "` is invalid: " ++ d.reason

end Defect

/-- Why a text gives no variant. -/
inductive LoadError where
  /-- The text is no record of a variant. -/
  | malformed (description : String)
  | invalid (name : String) (defect : Defect)
  deriving DecidableEq, Repr

def LoadError.message : LoadError → String
  | malformed description => "could not parse variant: " ++ description
  | invalid name defect => defect.message name

/-- Refuses a variant that is not valid. -/
def check (v : Variant) : Except LoadError Unit :=
  match v.defect? with
  | none => .ok ()
  | some defect => .error (.invalid v.name defect)

/-- The valid variant in a text. The record in the text is read by `read`. -/
def load (read : String → Except String Variant) (source : String) : Except LoadError Variant := do
  let v ← (read source).mapError .malformed
  v.check
  return v

end CapFixture.Variant
