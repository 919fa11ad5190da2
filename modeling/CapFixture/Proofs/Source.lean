import Mathlib.Data.List.Basic
import CapFixture.Source

/-!
# Counting lines and columns

The position that a text ends at, character by character and as a count: one line for each newline,
and one column for each character after the last of them.
-/

namespace CapFixture

namespace Position

/-- The position behind the characters, of which the first stands at `p`. -/
def past (p : Position) (cs : List Char) : Position := cs.foldl Position.after p

@[simp]
theorem past_nil (p : Position) : p.past [] = p := rfl

@[simp]
theorem past_cons (p : Position) (c : Char) (cs : List Char) :
    p.past (c :: cs) = (p.after c).past cs := rfl

theorem past_append (p : Position) (cs ds : List Char) :
    p.past (cs ++ ds) = (p.past cs).past ds :=
  List.foldl_append

/-- The place of the character that stands behind the text `before`. -/
def behind (before : List Char) : Position :=
  ⟨1 + before.count '\n', 1 + (before.reverse.takeWhile (· ≠ '\n')).length⟩

/-- Neither number is larger than the number of the character, counted from one. -/
theorem behind_le (before : List Char) :
    (behind before).line ≤ before.length + 1 ∧ (behind before).column ≤ before.length + 1 := by
  have hcolumn := (List.takeWhile_sublist (· ≠ '\n') (l := before.reverse)).length_le
  rw [List.length_reverse] at hcolumn
  have hline := before.count_le_length (a := '\n')
  unfold behind
  dsimp only
  omega

theorem behind_concat (before : List Char) (c : Char) :
    behind (before ++ [c]) = (behind before).after c := by
  unfold behind after
  by_cases hc : c = '\n'
  · rw [if_pos hc]
    subst hc
    simp [Nat.add_assoc]
  · rw [if_neg hc]
    simp [hc, Nat.add_assoc]

theorem behind_append (before cs : List Char) :
    behind (before ++ cs) = (behind before).past cs := by
  induction cs generalizing before with
  | nil => simp
  | cons c cs ih =>
    rw [past_cons, ← behind_concat, ← ih, List.append_assoc]
    rfl

end Position

namespace Glyph

theorem takeWhile_locate (f : Char → Bool) (p : Position) (cs : List Char) :
    (locate p cs).takeWhile (fun g => f g.char) = locate p (cs.takeWhile f) := by
  induction cs generalizing p with
  | nil => rfl
  | cons c cs ih =>
    by_cases hc : f c = true
    · simp [locate, hc, ih]
    · simp [locate, hc]

theorem dropWhile_locate (f : Char → Bool) (p : Position) (cs : List Char) :
    (locate p cs).dropWhile (fun g => f g.char) =
      locate (p.past (cs.takeWhile f)) (cs.dropWhile f) := by
  induction cs generalizing p with
  | nil => rfl
  | cons c cs ih =>
    by_cases hc : f c = true
    · simp [locate, hc, ih]
    · simp [locate, hc]

/-- The last of the characters stands behind the others. -/
theorem position_getLast_locate (p : Position) (c : Char) (cs : List Char) :
    ((locate (p.after c) cs).getLast?.getD ⟨c, p⟩).position = p.past (c :: cs).dropLast := by
  induction cs generalizing p c with
  | nil => rfl
  | cons d cs ih =>
    rw [locate, List.getLast?_cons, Option.getD_some, List.dropLast_cons_cons, Position.past_cons]
    exact ih (p.after c) d

end Glyph

end CapFixture
