import CapFixture.Proofs.Record.Number
import CapFixture.Record.Quoted

/-!
# Texts in quotes are read in all their spellings

Every spelling of a character is read as that character, so a text in quotes is read however it is
spelled.
-/

namespace CapFixture.Record

variable {c : Char} {cs digits letters name : List Char} {n : Nat}

/-! ### Code points -/

theorem digitValue?_lt {d : Nat} (h : digitValue? c = some d) : d < 16 := by
  unfold digitValue? at h
  simp only [Char.le_def, UInt32.le_iff_toNat_le] at h
  split at h
  · next hrange =>
    obtain rfl := Option.some.inj h
    have hlast : c.toNat ≤ 57 := hrange.2
    have hzero : '0'.toNat = 48 := rfl
    omega
  · split at h
    · next hrange =>
      obtain rfl := Option.some.inj h
      have hlast : c.toNat ≤ 102 := hrange.2
      have ha : 'a'.toNat = 97 := rfl
      omega
    · split at h
      · next hrange =>
        obtain rfl := Option.some.inj h
        have hlast : c.toNat ≤ 70 := hrange.2
        have ha : 'A'.toNat = 65 := rfl
        omega
      · cases h

theorem addDigit_eq {d : Nat} (h : digitValue? c = some d) (sum : Nat) :
    addDigit 16 sum c = some (16 * sum + d) := by
  have hne : c ≠ '_' := by
    rintro rfl
    cases h
  rw [addDigit, if_neg hne, h, Nat.mul_comm]
  exact if_pos (digitValue?_lt h)

theorem Hexadecimal.foldlM_eq (h : Hexadecimal digits n) :
    digits.foldlM (addDigit 16) 0 = some n := by
  induction h with
  | nil => rfl
  | snoc _ hvalue ih =>
    rw [List.foldlM_append, ih, Option.bind_eq_bind, Option.bind_some, List.foldlM_cons,
      addDigit_eq hvalue]
    rfl

theorem Hexadecimal.ne_of_mem (h : Hexadecimal digits n) (hc : digitValue? c = none) :
    c ∉ digits := by
  induction h with
  | nil => exact List.not_mem_nil
  | snoc _ hvalue ih =>
    rw [List.mem_append, List.mem_singleton, not_or]
    refine ⟨ih, ?_⟩
    rintro rfl
    cases hc.symm.trans hvalue

theorem codeOf?_eq (h : Hexadecimal digits n) (hne : digits ≠ []) (hshort : digits.length ≤ 6) :
    codeOf? digits = some n := by
  have hfits : (digits.isEmpty || 6 < digits.length || digits.contains '_') = false := by
    simp [hne, h.ne_of_mem (c := '_') rfl, Nat.not_lt_of_le hshort]
  rw [codeOf?, hfits]
  exact h.foldlM_eq

theorem charOf?_toNat (c : Char) : charOf? c.toNat = some c := by
  have hvalid : c.toNat.isValidChar := c.valid
  rw [charOf?, if_pos hvalid, Char.ofNat_toNat]

theorem escape_code (h : Hexadecimal digits c.toNat) (hne : digits ≠ [])
    (hshort : digits.length ≤ 6) (rest : List Char) :
    escape ('u' :: '\x7b' :: (digits ++ '\x7d' :: rest)) = some (c, rest) := by
  have hdigits : ∀ d ∈ digits, (d != '\x7d') = true := by
    intro d hd
    refine bne_iff_ne.mpr ?_
    rintro rfl
    exact h.ne_of_mem rfl hd
  have hends : ∀ d ∈ ('\x7d' :: rest).head?, (d != '\x7d') = false := by
    intro d hd
    rw [← Option.some.inj hd]
    rfl
  rw [escape, Text.takeWhile_run hdigits hends, Text.dropWhile_run hdigits hends,
    codeOf?_eq h hne hshort]
  simp [charOf?_toNat]

/-! ### Characters and texts -/

/-- A spelling is the character itself, or a backslash and an escape that is read as it. -/
theorem SpellsChar.cases_escape (h : SpellsChar c letters) :
    (c ≠ '"' ∧ c ≠ '\\' ∧ letters = [c]) ∨
    ∃ escaped, letters = '\\' :: escaped ∧
      ∀ rest, escape (escaped ++ rest) = some (c, rest) := by
  cases h with
  | plain hquote hbackslash => exact .inl ⟨hquote, hbackslash, rfl⟩
  | letter hmem =>
    refine .inr ⟨_, rfl, fun rest => ?_⟩
    simp only [letterEscapes, List.mem_cons, Prod.mk.injEq, List.not_mem_nil, or_false] at hmem
    rcases hmem with ⟨rfl, rfl⟩ | ⟨rfl, rfl⟩ | ⟨rfl, rfl⟩ | ⟨rfl, rfl⟩ | ⟨rfl, rfl⟩ | ⟨rfl, rfl⟩ |
      ⟨rfl, rfl⟩ <;> rfl
  | byte hhigh hlow hvalue =>
    refine .inr ⟨_, rfl, fun rest => ?_⟩
    simp [escape, hhigh, hlow, ← hvalue]
  | code hvalue hne hshort =>
    refine .inr ⟨_, rfl, fun rest => ?_⟩
    simpa using escape_code hvalue hne hshort rest

theorem SpellsChar.quotedFrom_eq (h : SpellsChar c letters) (steps : Nat) (rest : List Char) :
    quotedFrom (steps + 1) (letters ++ rest) =
      (quotedFrom steps rest).map fun (chars, rest) => (c :: chars, rest) := by
  rcases h.cases_escape with ⟨hquote, hbackslash, rfl⟩ | ⟨escaped, rfl, hescape⟩
  · change quotedFrom (steps + 1) (c :: rest) = _
    rw [quotedFrom, if_neg hquote, if_neg hbackslash]
    cases hread : quotedFrom steps rest <;> simp [hread]
  · change quotedFrom (steps + 1) ('\\' :: (escaped ++ rest)) = _
    rw [quotedFrom, if_neg (by decide), if_pos rfl, hescape]
    cases hread : quotedFrom steps rest <;> simp [hread]

theorem SpellsText.quotedFrom_eq (h : SpellsText cs name) {steps : Nat} (hsteps : cs.length < steps)
    (rest : List Char) : quotedFrom steps (name ++ '"' :: rest) = some (cs, rest) := by
  induction h generalizing steps with
  | nil =>
    obtain ⟨steps, rfl⟩ := Nat.exists_eq_add_of_lt hsteps
    rfl
  | cons hfirst hothers ih =>
    -- a character takes one step, however long its spelling is
    obtain ⟨steps, rfl⟩ : ∃ n, steps = n + 1 := ⟨steps - 1, by omega⟩
    rw [List.append_assoc, hfirst.quotedFrom_eq, ih (by simpa using hsteps)]
    rfl

theorem SpellsChar.length_pos (h : SpellsChar c letters) : 0 < letters.length := by
  cases h <;> exact Nat.succ_pos _

theorem SpellsText.length_le (h : SpellsText cs name) : cs.length ≤ name.length := by
  induction h with
  | nil => exact Nat.le_refl 0
  | cons hfirst _ ih =>
    have hletters := hfirst.length_pos
    rw [List.length_append, List.length_cons]
    omega

/-- A text in quotes is read, however it is spelled and whatever follows it. -/
theorem SpellsText.text_eq (h : SpellsText cs name) (rest : List Char) :
    text ('"' :: (name ++ '"' :: rest)) = some (cs, rest) := by
  have hlength := h.length_le
  refine h.quotedFrom_eq ?_ rest
  rw [List.length_append]
  omega

end CapFixture.Record
