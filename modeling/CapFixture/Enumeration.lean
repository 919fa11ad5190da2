import CapFixture.Enumeration.Grid
import CapFixture.Enumeration.Search

/-!
# Enumeration

All layouts that the grid and the search find for a variant, in order.

## Main definitions

- `Enumeration.Operation` — what can be done to a set of collected layouts
- `enumerate` — the layouts of both strategies
-/

namespace CapFixture

namespace Enumeration

/-- What can be done to the layouts collected so far. -/
inductive Operation where
  | grid
  | search
  | add (l : Layout)
  deriving DecidableEq, Repr

/-- What an operation answers: whether an addition was new, nothing for a strategy that met no
fault, and the fault otherwise. -/
inductive Answer where
  | added (new : Bool)
  | finished
  | failed (fault : Fault)
  deriving DecidableEq, Repr

private def answerOf (r : Run) : Answer :=
  match r.fault with
  | none => .finished
  | some fault => .failed fault

/-- A strategy that fails keeps what it has recorded up to then. -/
def Operation.perform (v : Variant) (s : LayoutSet) : Operation → Answer × LayoutSet
  | .grid =>
    let run := Enumeration.grid v
    (answerOf run, run.collectInto s)
  | .search =>
    let run := Enumeration.search v .empty
    (answerOf run, run.collectInto s)
  | .add l =>
    let (new, s) := LayoutSet.add s l
    (.added new, s)

end Enumeration

/-- The layouts of both strategies, in order and without repetition. -/
def enumerate (v : Variant) : Except Fault (List Layout) :=
  let run := (Enumeration.grid v).andThen fun _ => Enumeration.search v .empty
  match run.fault with
  | some fault => .error fault
  | none => .ok (run.collectInto ∅).toList

end CapFixture
