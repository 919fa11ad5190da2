import CapFixture.LayoutSet

/-!
# Runs

A run records layouts one after the other until it is done or a fault ends it. What was recorded
before the fault stays recorded.

## Main definitions

- `Run` — the recorded layouts and the fault
- `Run.andThen`, `Run.each` — runs in sequence, of which a fault skips the rest
-/

namespace CapFixture

/-- The possibilities that a strategy has found, and the fault that ended it early. -/
structure Run where
  recorded : List Layout
  fault : Option Fault
  deriving DecidableEq, Repr, Inhabited

namespace Run

def done : Run := ⟨[], none⟩

def fail (fault : Fault) : Run := ⟨[], some fault⟩

/-- Records a layout without its padding, unless it is padding only. -/
def record (l : Layout) : Run := ⟨l.possibility?.toList, none⟩

/-- Goes on with `next` only if the first run met no fault. -/
def andThen (first : Run) (next : Unit → Run) : Run :=
  match first.fault with
  | some _ => first
  | none =>
    let second := next ()
    ⟨first.recorded ++ second.recorded, second.fault⟩

/-- One run for each element, up to the first fault. -/
def each {α : Type} (f : α → Run) : List α → Run
  | [] => done
  | a :: as => (f a).andThen fun _ => each f as

/-- Goes on with a result, if there is one. -/
def attempt {α : Type} (result : Except Fault α) (next : α → Run) : Run :=
  match result with
  | .error fault => fail fault
  | .ok a => next a

/-- The set with everything that the run recorded. -/
def collectInto (r : Run) (s : LayoutSet) : LayoutSet := s.insertMany r.recorded

end Run

end CapFixture
