import CapFixture.Field

/-!
# Faults

Everything that can go wrong between a variant and the text of its test programs. Offsets and sizes
are unsigned words of 64 bits, and a sum or a product that no word holds is a fault. A machine that
does not look for such faults goes on with the rest modulo the size of a word, and up to the first
of them it does the same.

## Main definitions

- `Fault` — what can go wrong
- `Arithmetic.checked` — the result of an operation on words
- `Field.wordStop`, `Field.wordOverlaps` — what is computed from the ends of fields
-/

namespace CapFixture

/-- How many numbers there are in a word of 64 bits, that is `2 ^ 64`. -/
def wordSize : Nat := 0x10000000000000000

/-- The operations whose result may be too large for a word. -/
inductive Arithmetic where
  | add
  | mul
  deriving DecidableEq, Repr

/-- Why a layout or a program cannot be built. -/
inductive Fault where
  /-- The variant has no field of this kind and size. -/
  | badSize (kind : Kind) (size : Nat)
  /-- The offset is no multiple of the size. -/
  | misaligned (kind : Kind) (offset size : Nat)
  /-- An integer or capability of no bytes has no alignment. -/
  | zeroWidth
  /-- A capability of no bytes has no slots to round an offset down to. -/
  | zeroCapability
  /-- No C type has this kind and size. -/
  | noCType (kind : Kind) (size : Nat)
  /-- No word holds the result of the operation. -/
  | overflow (operation : Arithmetic)
  /-- A move of the search does not advance, so the search would not end. -/
  | stalled
  deriving DecidableEq, Repr

namespace Fault

def message : Fault → String
  | badSize kind size => kind.word ++ " field cannot be " ++ toString size ++ " bytes wide"
  | misaligned kind offset size =>
    kind.word ++ " field of " ++ toString size ++ " bytes at offset " ++ toString offset
      ++ " is misaligned"
  | zeroWidth => "attempt to calculate the remainder with a divisor of zero"
  | zeroCapability => "attempt to divide by zero"
  | noCType kind size =>
    "internal error: entered unreachable code: no C type for " ++ toString size ++ " byte "
      ++ kind.word ++ " field"
  | overflow .add => "attempt to add with overflow"
  | overflow .mul => "attempt to multiply with overflow"
  | stalled => "the search does not advance"

end Fault

/-- The result of an operation, if a word holds it. -/
def Arithmetic.checked (operation : Arithmetic) (result : Nat) : Except Fault Nat :=
  if result < wordSize then .ok result else .error (.overflow operation)

namespace Arithmetic

variable {operation : Arithmetic} {result n : Nat}

theorem checked_of_lt (h : result < wordSize) (operation : Arithmetic) :
    operation.checked result = .ok result :=
  if_pos h

theorem checked_of_le (h : wordSize ≤ result) (operation : Arithmetic) :
    operation.checked result = .error (.overflow operation) :=
  if_neg (Nat.not_lt_of_le h)

theorem checked_eq_ok_iff : operation.checked result = .ok n ↔ result < wordSize ∧ n = result := by
  unfold checked
  split
  · next h => exact ⟨fun heq => ⟨h, (Except.ok.inj heq).symm⟩, fun heq => by rw [heq.2]⟩
  · next h => exact ⟨fun heq => (nomatch heq), fun heq => absurd heq.1 h⟩

end Arithmetic

namespace Field

/-- Where the field stops, as a word. -/
def wordStop (f : Field) : Except Fault Nat := Arithmetic.add.checked f.stop

/-- Whether two fields overlap. Where the second one stops decides whether the end of the first one
is looked at. -/
def wordOverlaps (f g : Field) : Except Fault Bool := do
  if f.offset < (← g.wordStop) then return g.offset < (← f.wordStop) else return false

end Field

end CapFixture
