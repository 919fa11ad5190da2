import CapFixture.LayoutSet

/-!
# Confused layouts

A confused layout has a capability where an integer was. The capability stands at the integer's
offset rounded down to the capability width, and every field that it collides with is gone.
-/

namespace CapFixture.Layout

/-- The capability in whose slot the offset lies. -/
def slotOf (v : Variant) (offset : Nat) : Except Fault Field :=
  if v.capabilityWidth = 0 then .error .zeroCapability
  else
    Field.make v .ptr (offset / v.capabilityWidth * v.capabilityWidth) v.capabilityWidth

/-- Whether a field stays where the capability has been put. -/
def spared (capability f : Field) : Except Fault Bool := do
  if f = capability then return true else return !(← f.wordOverlaps capability)

/-- The fields that stay where the capability has been put. -/
def sparedOf (capability : Field) : List Field → Except Fault (List Field)
  | [] => .ok []
  | f :: rest => do
    let stays ← spared capability f
    let others ← sparedOf capability rest
    return if stays then f :: others else others

/-- Puts `capability` between the fields and drops those it collides with. -/
def confuse (before : List Field) (capability : Field) (after : List Field) :
    Except Fault Layout := do
  return ⟨(← sparedOf capability before) ++ capability :: (← sparedOf capability after)⟩

/-- The layouts in which one integer of `rest` has become a capability, where the fields
`before` come first. -/
def confusionsFrom (v : Variant) (before : List Field) :
    List Field → Except Fault (List Layout)
  | [] => .ok []
  | f :: rest =>
    if f.kind = .int then do
      let capability ← slotOf v f.offset
      let confused ← confuse before capability rest
      let others ← confusionsFrom v (before ++ [f]) rest
      return confused :: others
    else confusionsFrom v (before ++ [f]) rest

/-- The confused layouts in order, one for each slot that an integer starts in. -/
def confusions (v : Variant) (l : Layout) : Except Fault (List Layout) := do
  return sorted (← confusionsFrom v [] l.fields)

end CapFixture.Layout
