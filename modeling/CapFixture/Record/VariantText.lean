import CapFixture.Record.Value
import CapFixture.Text.EscapeDebug
import CapFixture.Variant.Codec

/-!
# Records of variants

The record of a variant has a field for each member. They may stand in any order, and fields that
are not known are ignored. Before the record there may be attributes and the name of the type.

## Main definitions

- `Record.variant` — the variant in a record
- `Variant.codec` — one way to write and to read variants
-/

namespace CapFixture

namespace Record

/-- The members of a variant that have been read. -/
structure Draft where
  name : Option (List Char)
  byteLimit : Option Nat
  intSizes : Option (List Nat)
  paddingAmounts : Option (List Nat)
  capabilityWidth : Option Nat
  recursionStep : Option Nat

namespace Draft

def empty : Draft := ⟨none, none, none, none, none, none⟩

/-- The variant, if all its members have been read. -/
def finish (d : Draft) : Option Variant := do
  return {
    name := .ofList (← d.name)
    byteLimit := ← d.byteLimit
    intSizes := ← d.intSizes
    paddingAmounts := ← d.paddingAmounts
    capabilityWidth := ← d.capabilityWidth
    recursionStep := ← d.recursionStep }

end Draft

/-- Reads a list of numbers. -/
def numbers : List Char → Option (List Nat × List Char)
  | '[' :: cs => entries ']' (fun ns cs => do
      let (n, rest) ← number cs
      return (ns ++ [n], rest)) [] cs
  | _ => none

/-- Reads the value of a member that has not been read before. -/
def once {α : Type} (old : Option α) (read : List Char → Option (α × List Char))
    (cs : List Char) : Option (α × List Char) :=
  if old.isSome then none else read cs

/-- Reads a field of a variant. -/
def field (bare : Bool) (d : Draft) (cs : List Char) : Option (Draft × List Char) := do
  let (key, cs) ← word cs
  let cs ← skipGap (← expect ':' (← skipGap cs))
  if key = "name".toList then
    let (name, rest) ← once d.name text cs
    return ({ d with name := some name }, rest)
  else if key = "byte_limit".toList then
    let (limit, rest) ← once d.byteLimit number cs
    return ({ d with byteLimit := some limit }, rest)
  else if key = "int_sizes".toList then
    let (sizes, rest) ← once d.intSizes numbers cs
    return ({ d with intSizes := some sizes }, rest)
  else if key = "padding_amounts".toList then
    let (amounts, rest) ← once d.paddingAmounts numbers cs
    return ({ d with paddingAmounts := some amounts }, rest)
  else if key = "capability_width".toList then
    let (width, rest) ← once d.capabilityWidth number cs
    return ({ d with capabilityWidth := some width }, rest)
  else if key = "recursion_step".toList then
    let (step, rest) ← once d.recursionStep number cs
    return ({ d with recursionStep := some step }, rest)
  else
    let rest ← skipValue bare maxNesting cs
    return (d, rest)

/-- Reads the name of an extension. Only one of them matters for values: options without
parentheses. -/
def extension (bare : Option Bool) (cs : List Char) : Option (Option Bool × List Char) := do
  let (name, rest) ← word cs
  if name = "implicit_some".toList then return (some true, rest)
  else if name = "unwrap_newtypes".toList ∨ name = "unwrap_variant_newtypes".toList then
    return (some (bare.getD false), rest)
  else none

/-- Reads one attribute, which enables some extensions, and says whether options may stand
without parentheses. -/
def readAttribute (cs : List Char) : Option (Bool × List Char) := do
  let cs ← skipGap (← expect '#' cs)
  let cs ← skipGap (← expect '!' cs)
  let cs ← skipGap (← expect '[' cs)
  let cs ← skipGap (← "enable".toList.isPrefixOf? cs)
  let (bare, cs) ← entries ')' extension none (← expect '(' cs)
  let cs ← skipGap (← expect ']' (← skipGap cs))
  return (← bare, cs)

/-- Reads all attributes, in as many steps as allowed. -/
def readAttributes : Nat → Bool → List Char → Option (Bool × List Char)
  | 0, _, _ => none
  | steps + 1, bare, cs =>
    if startsWith (· == '#') cs then do
      let (enabled, rest) ← readAttribute cs
      readAttributes steps (bare || enabled) rest
    else some (bare, cs)

/-- Reads the name of the type, if there is one. -/
def typeName (cs : List Char) : Option (List Char) :=
  if startsWith isWordChar cs then do
    let (name, rest) ← word cs
    if name = "Variant".toList then some rest else none
  else some cs

/-- Reads a variant and everything around it. -/
def variant (cs : List Char) : Option Variant := do
  let cs ← skipGap cs
  let (bare, cs) ← readAttributes (cs.length + 1) false cs
  let cs ← skipGap (← typeName cs)
  let (draft, cs) ← entries ')' (field bare) .empty (← expect '(' cs)
  match ← skipGap cs with
  | [] => draft.finish
  | _ :: _ => none

end Record

/-- Writes shortest records, and reads records in any form. -/
def Variant.codec : Variant.Codec where
  write v := v.record (v.name.toList.flatMap (Text.escapeDebug Text.isHidden))
  read source :=
    match Record.variant source.toList with
    | some v => .ok v
    | none => .error "the text is no record of a variant"

end CapFixture
