import CapFixture.Proofs.Record.Spelling

/-!
# Numbers are read as they are written

The digits of a number have its value in their base, and a decimal number is taken off a text as
long as the text does not go on with the number.

## Main definitions

- `NumberEnds` — a text that no number goes on with
-/

namespace CapFixture.Record

/-- A text that no number goes on with, and whose start makes a zero before it no mark of a base. -/
def NumberEnds (rest : List Char) : Prop :=
  ∀ c ∈ rest.head?, isIntegerChar c = false ∧ c ≠ 'x' ∧ c ≠ 'o'

/-! ### Digits in any base -/

theorem digitChar_ne {d : Nat} (h : d < 16) : d.digitChar ≠ '_' ∧ d.digitChar ≠ '\x7d' := by
  revert d
  decide

theorem addDigit_digitChar {base d : Nat} (hbase : base ≤ 16) (h : d < base) (sum : Nat) :
    addDigit base sum d.digitChar = some (sum * base + d) := by
  have hd : d < 16 := Nat.lt_of_lt_of_le h hbase
  rw [addDigit, if_neg (digitChar_ne hd).1, digitValue?_digitChar hd]
  exact if_pos h

theorem exists_digit_of_mem_toDigits {base n : Nat} {c : Char} (hbase : 1 < base)
    (h : c ∈ Nat.toDigits base n) : ∃ d < base, c = d.digitChar := by
  induction n using Nat.strongRecOn with
  | ind n ih =>
    by_cases hn : n < base
    · rw [Nat.toDigits_of_lt_base hn, List.mem_singleton] at h
      exact ⟨n, hn, h⟩
    · have hle : base ≤ n := Nat.le_of_not_lt hn
      rw [Nat.toDigits_of_base_le hbase hle, List.mem_append, List.mem_singleton] at h
      rcases h with h | h
      · exact ih (n / base) (Nat.div_lt_self (by omega) hbase) h
      · exact ⟨n % base, Nat.mod_lt n (by omega), h⟩

/-- The digits of a number have its value. -/
theorem foldlM_addDigit_toDigits {base : Nat} (hbase : 1 < base) (hle : base ≤ 16) (n : Nat) :
    (Nat.toDigits base n).foldlM (addDigit base) 0 = some n := by
  induction n using Nat.strongRecOn with
  | ind n ih =>
    by_cases hn : n < base
    · rw [Nat.toDigits_of_lt_base hn, List.foldlM_cons, addDigit_digitChar hle hn, Nat.zero_mul,
        Nat.zero_add]
      rfl
    · -- the last digit is read after those of the quotient
      have hbase_le : base ≤ n := Nat.le_of_not_lt hn
      have hdigit : n % base < base := Nat.mod_lt n (by omega)
      have hsplit : n / base * base + n % base = n := Nat.div_add_mod' n base
      rw [Nat.toDigits_of_base_le hbase hbase_le, List.foldlM_append,
        ih (n / base) (Nat.div_lt_self (by omega) hbase)]
      change List.foldlM (addDigit base) (n / base) [(n % base).digitChar] = _
      rw [List.foldlM_cons, addDigit_digitChar hle hdigit, hsplit]
      rfl

/-! ### Decimal numbers -/

theorem isIntegerChar_of_isDigit {c : Char} (h : c.isDigit = true) : isIntegerChar c = true := by
  have hrange : '0' ≤ c ∧ c ≤ '9' := by
    simpa [Char.isDigit, Char.le_def] using h
  rw [isIntegerChar, digitValue?, if_pos hrange]
  rfl

/-- The marks of the other bases, of which one is a digit in some base. -/
theorem isDigit_eq_false_of_mark {c : Char} (h : c = 'x' ∨ c = 'b' ∨ c = 'o') :
    c.isDigit = false ∧ (isIntegerChar c = true ∨ c = 'x' ∨ c = 'o') := by
  rcases h with rfl | rfl | rfl <;> decide

/-- No decimal number starts like one in another base. -/
theorem baseOf_decimal (n : Nat) {rest : List Char} (hrest : NumberEnds rest) :
    baseOf (Nat.toDigits 10 n ++ rest) = (10, Nat.toDigits 10 n ++ rest) := by
  have hdigit : ∀ c ∈ Nat.toDigits 10 n, c.isDigit = true := fun c hc =>
    Text.isDigit_of_mem_decimal hc
  obtain ⟨c, cs, hdigits⟩ := List.exists_cons_of_ne_nil (Nat.toDigits_ne_nil (n := n) (b := 10))
  rw [hdigits] at hdigit ⊢
  have hsecond : ∀ d tail, cs ++ rest = d :: tail → ¬ (d = 'x' ∨ d = 'b' ∨ d = 'o') := by
    intro d tail htail hd
    obtain ⟨hmark, hends⟩ := isDigit_eq_false_of_mark hd
    cases cs with
    | nil =>
      obtain ⟨hinteger, hx, ho⟩ := hrest d (by rw [show rest = d :: tail from htail]; rfl)
      simp [hinteger, hx, ho] at hends
    | cons e cs =>
      obtain rfl := (List.cons.inj htail).1
      rw [hdigit e (by simp)] at hmark
      cases hmark
  -- another base needs a mark behind a zero
  unfold baseOf
  split
  · next h => exact absurd (by simp) (hsecond 'x' _ (List.cons.inj h).2)
  · next h => exact absurd (by simp) (hsecond 'b' _ (List.cons.inj h).2)
  · next h => exact absurd (by simp) (hsecond 'o' _ (List.cons.inj h).2)
  · rfl

theorem valueOf?_decimal (n : Nat) : valueOf? 10 (Nat.toDigits 10 n) = some n := by
  have hvalue := foldlM_addDigit_toDigits (by decide) (by decide : 10 ≤ 16) n
  cases hdigits : Nat.toDigits 10 n with
  | nil => exact absurd hdigits Nat.toDigits_ne_nil
  | cons c cs =>
    obtain ⟨d, hd, hc⟩ := exists_digit_of_mem_toDigits (by decide)
      (show c ∈ Nat.toDigits 10 n by rw [hdigits]; simp)
    have hne : c ≠ '_' := hc ▸ (digitChar_ne (by omega)).1
    rw [valueOf?, if_neg hne, ← hdigits, hvalue]

theorem number_decimal {n : Nat} (hn : n ≤ maxNumber) {rest : List Char}
    (hrest : NumberEnds rest) : number (Nat.toDigits 10 n ++ rest) = some (n, rest) := by
  have hall : ∀ c ∈ Nat.toDigits 10 n, isIntegerChar c = true := fun c hc =>
    isIntegerChar_of_isDigit (Text.isDigit_of_mem_decimal hc)
  have hends : ∀ c ∈ rest.head?, isIntegerChar c = false := fun c hc => (hrest c hc).1
  rw [number, integer, baseOf_decimal n hrest]
  dsimp only
  rw [Text.takeWhile_run hall hends, valueOf?_decimal, Text.dropWhile_run hall hends]
  exact if_pos hn

end CapFixture.Record
