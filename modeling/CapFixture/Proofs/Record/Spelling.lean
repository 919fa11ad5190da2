import CapFixture.Fault
import CapFixture.Proofs.Text.Decimal
import CapFixture.Record.Number
import CapFixture.Text.EscapeDebug
import CapFixture.Variant.Codec

/-!
# Spellings of texts

A text between quotes can be spelled in many ways, because every character has a few escapes. What
is written for debugging is one of them.

## Main definitions

- `SpellsChar`, `SpellsText` — the ways to write a character and a text between quotes
- `Variant.Codec.Lawful` — a library that writes one spelling and reads all of them
-/

namespace CapFixture

namespace Record

/-- The digits write the number in hexadecimal. -/
inductive Hexadecimal : List Char → Nat → Prop where
  | nil : Hexadecimal [] 0
  | snoc {digits : List Char} {n digit : Nat} {c : Char} (above : Hexadecimal digits n)
      (value : digitValue? c = some digit) : Hexadecimal (digits ++ [c]) (16 * n + digit)

/-- The characters that have an escape of one letter, with the letter. -/
def letterEscapes : List (Char × Char) :=
  [('\x00', '0'), ('\t', 't'), ('\r', 'r'), ('\n', 'n'), ('\'', '\''), ('"', '"'), ('\\', '\\')]

/-- The ways to write a character between quotes. -/
inductive SpellsChar : Char → List Char → Prop where
  /-- All characters but two stand for themselves. -/
  | plain {c : Char} (not_quote : c ≠ '"') (not_backslash : c ≠ '\\') : SpellsChar c [c]
  | letter {c letter : Char} (mem : (c, letter) ∈ letterEscapes) : SpellsChar c ['\\', letter]
  /-- Two hexadecimal digits. -/
  | byte {c high low : Char} {n m : Nat} (high_eq : digitValue? high = some n)
      (low_eq : digitValue? low = some m) (value : c.toNat = 16 * n + m) :
      SpellsChar c ['\\', 'x', high, low]
  /-- One to six hexadecimal digits in braces. -/
  | code {c : Char} {digits : List Char} (value : Hexadecimal digits c.toNat)
      (ne_nil : digits ≠ []) (short : digits.length ≤ 6) :
      SpellsChar c ('\\' :: 'u' :: '\x7b' :: (digits ++ ['\x7d']))

/-- The ways to write a text between quotes. -/
inductive SpellsText : List Char → List Char → Prop where
  | nil : SpellsText [] []
  | cons {c : Char} {cs letters rest : List Char} (first : SpellsChar c letters)
      (others : SpellsText cs rest) : SpellsText (c :: cs) (letters ++ rest)

end Record

namespace Variant

/-- Every number of the variant is a word. -/
structure InRange (v : Variant) : Prop where
  byteLimit : v.byteLimit < wordSize
  intSizes : ∀ n ∈ v.intSizes, n < wordSize
  paddingAmounts : ∀ n ∈ v.paddingAmounts, n < wordSize
  capabilityWidth : v.capabilityWidth < wordSize
  recursionStep : v.recursionStep < wordSize

/-- What is known of a library of records. -/
structure Codec.Lawful (codec : Codec) : Prop where
  /-- It writes shortest records, with names as they are written for debugging. It has tables of the
  characters that do not show. -/
  written : ∃ hidden : Char → Bool, ∀ v : Variant, v.InRange →
    codec.write v = v.record (v.name.toList.flatMap (Text.escapeDebug hidden))
  /-- It reads shortest records, however their names are spelled. -/
  reads : ∀ (v : Variant) (name : List Char), v.InRange →
    Record.SpellsText v.name.toList name → codec.read (v.record name) = .ok v

end Variant

namespace Record

/-! ### Code points -/

theorem digitValue?_digitChar {d : Nat} (h : d < 16) : digitValue? d.digitChar = some d := by
  revert d
  decide

/-- The digits of a number write it. -/
theorem hexadecimal_toDigits (n : Nat) : Hexadecimal (Nat.toDigits 16 n) n := by
  induction n using Nat.strongRecOn with
  | ind n ih =>
    by_cases hn : n < 16
    · rw [Nat.toDigits_of_lt_base hn]
      have hdigit := Hexadecimal.nil.snoc (digitValue?_digitChar hn)
      rwa [Nat.mul_zero, Nat.zero_add] at hdigit
    · -- the last digit comes after those of the quotient
      have hle : 16 ≤ n := Nat.le_of_not_lt hn
      have hdigit := (ih (n / 16) (Nat.div_lt_self (by omega) (by decide))).snoc
        (digitValue?_digitChar (Nat.mod_lt n (by decide)))
      rwa [Nat.div_add_mod, ← Nat.toDigits_of_base_le (by decide) hle] at hdigit

/-- No code point has more than six digits. -/
theorem length_toDigits_le_six (c : Char) : (Nat.toDigits 16 c.toNat).length ≤ 6 := by
  have hvalid : c.toNat < 0xD800 ∨ 0xDFFF < c.toNat ∧ c.toNat < 0x110000 := c.valid
  exact (Nat.length_toDigits_le_iff (by decide) (by decide)).mpr (by omega)

/-! ### Texts for debugging -/

/-- Whatever is taken for hidden, a character is written in one of its spellings. -/
theorem spellsChar_escapeDebug (hidden : Char → Bool) (c : Char) :
    SpellsChar c (Text.escapeDebug hidden c) := by
  unfold Text.escapeDebug
  split
  case h_8 _ _ _ _ _ hquote hbackslash =>
    by_cases hcode : hidden c = true
    · rw [if_pos hcode]
      exact .code (hexadecimal_toDigits c.toNat) Nat.toDigits_ne_nil (length_toDigits_le_six c)
    · rw [if_neg hcode]
      exact .plain hquote hbackslash
  all_goals exact .letter (by decide)

theorem spellsText_escapeDebug (hidden : Char → Bool) (cs : List Char) :
    SpellsText cs (cs.flatMap (Text.escapeDebug hidden)) := by
  induction cs with
  | nil => exact .nil
  | cons c cs ih => exact .cons (spellsChar_escapeDebug hidden c) ih

end Record

/-- What a lawful library writes it reads. -/
theorem Variant.Codec.Lawful.read_write {codec : Variant.Codec} (h : codec.Lawful) {v : Variant}
    (hv : v.InRange) : codec.read (codec.write v) = .ok v := by
  obtain ⟨hidden, hwritten⟩ := h.written
  rw [hwritten v hv]
  exact h.reads v _ hv (Record.spellsText_escapeDebug hidden v.name.toList)

end CapFixture
