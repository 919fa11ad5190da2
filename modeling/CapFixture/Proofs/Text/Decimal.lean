import CapFixture.Proofs.Text.Run

/-!
# Decimal numerals

A number is written with digits only, and so it can be read off a text wherever no digit follows it.

## Main definitions

- `numeral?` — the number that a word is
-/

namespace CapFixture.Text

theorem isDigit_of_mem_decimal {n : Nat} {c : Char} (h : c ∈ Nat.toDigits 10 n) :
    c.isDigit = true :=
  Nat.isDigit_of_mem_toDigits (by decide) (by decide) h

theorem decimal_injective : Function.Injective (Nat.toDigits 10) := by
  intro m n h
  have hread := congrArg (Nat.ofDigitChars 10 · 0) h
  simpa only [Nat.ofDigitChars_ten_toDigits] using hread

theorem takeWhile_decimal_append (n : Nat) {rest : List Char}
    (hrest : ∀ c ∈ rest.head?, c.isDigit = false) :
    (Nat.toDigits 10 n ++ rest).takeWhile Char.isDigit = Nat.toDigits 10 n :=
  takeWhile_run (fun _ hc => isDigit_of_mem_decimal hc) hrest

theorem toList_toString (n : Nat) : (toString n).toList = Nat.toDigits 10 n := by
  rw [Nat.toString_eq_ofList_toDigits, String.toList_ofList]

theorem isDigit_of_mem_toString {n : Nat} {c : Char} (h : c ∈ (toString n).toList) :
    c.isDigit = true :=
  isDigit_of_mem_decimal (toList_toString n ▸ h)

/-- The number that a word of digits is. -/
def numeral? (word : String) : Option Nat :=
  if word.toList.all Char.isDigit then some (Nat.ofDigitChars 10 word.toList 0) else none

theorem numeral?_toString (n : Nat) : numeral? (toString n) = some n := by
  have hdigits : (toString n).toList.all Char.isDigit = true :=
    List.all_eq_true.mpr fun _ hc => isDigit_of_mem_toString hc
  rw [numeral?, if_pos hdigits, toList_toString, Nat.ofDigitChars_ten_toDigits]

/-- A number and what follows it can be told apart where that starts with no digit. -/
theorem decimal_append_inj {m n : Nat} {s t : List Char} (hs : ∀ c ∈ s.head?, c.isDigit = false)
    (ht : ∀ c ∈ t.head?, c.isDigit = false) :
    Nat.toDigits 10 m ++ s = Nat.toDigits 10 n ++ t ↔ m = n ∧ s = t := by
  constructor
  · intro h
    have hdigits := congrArg (List.takeWhile Char.isDigit) h
    rw [takeWhile_decimal_append m hs, takeWhile_decimal_append n ht] at hdigits
    rw [hdigits] at h
    exact ⟨decimal_injective hdigits, List.append_cancel_left h⟩
  · rintro ⟨rfl, rfl⟩
    rfl

end CapFixture.Text
