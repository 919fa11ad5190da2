import Mathlib.Data.List.TakeWhile

/-!
# Runs at the start of a text

A run of characters of one kind can be told apart from what follows it, if that starts with a
character of another kind or is empty.
-/

namespace CapFixture.Text

variable {α : Type} {p : α → Bool} {run rest : List α}

theorem takeWhile_run (hrun : ∀ a ∈ run, p a = true) (hends : ∀ a ∈ rest.head?, p a = false) :
    (run ++ rest).takeWhile p = run := by
  have hstop : rest.takeWhile p = [] := by
    cases rest with
    | nil => rfl
    | cons a rest => rw [List.takeWhile_cons_of_neg (by simp [hends a rfl])]
  rw [List.takeWhile_append_of_pos hrun, hstop, List.append_nil]

theorem dropWhile_run (hrun : ∀ a ∈ run, p a = true) (hends : ∀ a ∈ rest.head?, p a = false) :
    (run ++ rest).dropWhile p = rest := by
  have hstop : rest.dropWhile p = rest := by
    cases rest with
    | nil => rfl
    | cons a rest => rw [List.dropWhile_cons_of_neg (by simp [hends a rfl])]
  rw [List.dropWhile_append_of_pos hrun, hstop]

end CapFixture.Text
