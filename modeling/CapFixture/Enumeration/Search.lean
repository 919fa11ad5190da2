import CapFixture.Enumeration.Run

/-!
# The search

The search tries every sequence of moves that crosses the limit with its last move. A move
appends padding, an integer or a capability.
-/

namespace CapFixture.Enumeration

/-- What the search appends at each layout, in this order. -/
def moves (v : Variant) : List (Kind × Nat) :=
  [(.padding, v.recursionStep), (.int, v.recursionStep), (.ptr, v.capabilityWidth)]

/-- Every sequence of moves from `l` on, up to the first layout that ends past the limit. -/
def search (v : Variant) (l : Layout) : Run :=
  match _total : l.wordTotal with
  | .error fault => Run.fail fault
  | .ok total =>
    if v.byteLimit < total then Run.record l
    else
      moves v |> Run.each fun (kind, size) =>
        Run.attempt (l.append v kind size) fun next =>
          if l.total < next.total then search v next else Run.fail .stalled
termination_by v.byteLimit + 1 - l.total
decreasing_by
  have := Layout.eq_total_of_wordTotal _total
  omega

end CapFixture.Enumeration
