import CapFixture.Layout

/-!
# Listings

A listing has one line for each layout and two lines with totals.
-/

namespace CapFixture.Listing

/-- The lines of a listing. -/
def lines (ls : List Layout) : List String :=
  ls.map Layout.render ++
    [ "# possibilities: " ++ toString ls.length,
      "total # fields: " ++ toString (ls.flatMap Layout.fields).length ]

def render (ls : List Layout) : String := String.join ((lines ls).map (· ++ "\n"))

end CapFixture.Listing
