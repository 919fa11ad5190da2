import CapFixture.Layout
import Std.Data.ExtTreeSet.Basic

/-!
# Sets of layouts

The possibilities that an enumeration collects: layouts without padding, kept in order and
without repetition. Two sets with the same members are equal.
-/

namespace CapFixture

/-- What is left of a layout once its padding is gone, unless nothing is. -/
def Layout.possibility? (l : Layout) : Option Layout :=
  let stripped := l.stripPadding
  if stripped.isEmpty then none else some stripped

/-- Layouts in order, each once. -/
abbrev LayoutSet := Std.ExtTreeSet Layout

namespace LayoutSet

/-- Collects a layout without its padding and says whether that was new. -/
def add (s : LayoutSet) (l : Layout) : Bool × LayoutSet :=
  match l.possibility? with
  | none => (false, s)
  | some possibility => (!s.contains possibility, s.insert possibility)

end LayoutSet

namespace Layout

/-- The layouts in order, each once. -/
def sorted (ls : List Layout) : List Layout := (Std.ExtTreeSet.ofList ls).toList

end Layout

end CapFixture
