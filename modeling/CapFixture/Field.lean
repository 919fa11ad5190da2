/-!
# Fields

A field is one slot of a buffer: where it starts, what it holds and how many bytes it covers.
Fields are ordered by offset, then by kind, then by size.

## Main definitions

- `Kind` — what a field holds
- `Field` — one slot, with `Field.stop`, `Field.overlaps` and its printed form
-/

namespace CapFixture

/-- What a field holds: a plain integer, a capability, or nothing. -/
inductive Kind where
  | int
  | ptr
  | padding
  deriving DecidableEq, Repr, Inhabited

namespace Kind

/-- The word that stands for the kind in listings and messages. -/
def word : Kind → String
  | int => "int"
  | ptr => "ptr"
  | padding => "padding"

/-- Integers come before capabilities, and padding comes last. -/
def rank : Kind → Nat
  | int => 0
  | ptr => 1
  | padding => 2

theorem rank_injective {a b : Kind} (h : a.rank = b.rank) : a = b := by
  cases a <;> cases b <;> simp_all [rank]

instance : Ord Kind := ⟨compareOn rank⟩

instance : Std.TransOrd Kind := inferInstanceAs (Std.TransCmp (compareOn rank))

instance : Std.LawfulEqOrd Kind where
  eq_of_compare {a b} h := by
    have h : compare a.rank b.rank = .eq := h
    exact rank_injective (Std.compare_eq_iff_eq.mp h)

end Kind

/-- One slot of a buffer. -/
structure Field where
  offset : Nat
  kind : Kind
  size : Nat
  deriving DecidableEq, Repr, Inhabited

namespace Field

/-- One past the last byte that the field covers. -/
def stop (f : Field) : Nat := f.offset + f.size

/-- Two fields overlap when each starts before the other stops. -/
def overlaps (f g : Field) : Bool := f.offset < g.stop && g.offset < f.stop

/-- The printed form `offset:kind:size`. -/
def render (f : Field) : String :=
  toString f.offset ++ ":" ++ f.kind.word ++ ":" ++ toString f.size

/-- By offset, then kind, then size. -/
protected def compare : Field → Field → Ordering :=
  compareLex (compareOn offset) (compareLex (compareOn kind) (compareOn size))

instance : Ord Field := ⟨Field.compare⟩

instance : Std.TransOrd Field := inferInstanceAs (Std.TransCmp
  (compareLex (compareOn offset) (compareLex (compareOn kind) (compareOn size))))

instance : Std.LawfulEqOrd Field where
  eq_of_compare {f g} h := by
    have h : compareLex (compareOn offset) (compareLex (compareOn kind) (compareOn size)) f g
      = .eq := h
    simp only [compareLex, Ordering.then_eq_eq, compareOn, Std.compare_eq_iff_eq] at h
    obtain ⟨offsets, kinds, sizes⟩ := h
    cases f
    cases g
    simp_all

end Field

end CapFixture
