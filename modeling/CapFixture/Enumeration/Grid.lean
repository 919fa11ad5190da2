import CapFixture.Enumeration.Run

/-!
# The grid

For every integer width and every gap the grid alternates integers of that width with that gap
until the limit is passed, once from the start of the buffer and once after a leading gap.
-/

namespace CapFixture.Enumeration

/-- Alternates integers with gaps as long as the layout ends within the limit. The last integer
may end past it. -/
def fill (v : Variant) (width gap : Nat) (l : Layout) : Except Fault Layout :=
  match _total : l.wordTotal with
  | .error fault => .error fault
  | .ok total =>
    if total ≤ v.byteLimit then
      match _wider : l.append v .int width with
      | .error fault => .error fault
      | .ok wider =>
        match _next : wider.append v .padding gap with
        | .error fault => .error fault
        | .ok next => fill v width gap next
    else .ok l
termination_by v.byteLimit + 1 - l.total
decreasing_by
  have := Layout.eq_total_of_wordTotal _total
  have := Layout.total_lt_of_append _wider (by decide)
  have := Layout.total_le_of_append _next
  omega

/-- Every width with every gap, from the start and after a leading gap. -/
def grid (v : Variant) : Run :=
  v.intSizes |> Run.each fun width =>
    v.paddingAmounts |> Run.each fun gap =>
      Run.attempt (Layout.empty.append v .padding gap) fun lead =>
        [Layout.empty, lead] |> Run.each fun start =>
          Run.attempt (fill v width gap start) Run.record

end CapFixture.Enumeration
