/-!
# Lines

A line ends with its newline. The last line may lack one, and nothing after a final newline is no
line.
-/

namespace CapFixture.Text

/-- Puts a character in front of the first line, or in front of all lines if it ends one. -/
private def addToLines (c : Char) (lines : List (List Char)) : List (List Char) :=
  if c = '\n' then [c] :: lines
  else
    match lines with
    | [] => [[c]]
    | line :: rest => (c :: line) :: rest

private theorem flatten_addToLines (c : Char) (lines : List (List Char)) :
    (addToLines c lines).flatten = c :: lines.flatten := by
  unfold addToLines
  split
  · rfl
  · cases lines <;> rfl

/-- The lines of a text, each with its newline. -/
def lines (cs : List Char) : List (List Char) := cs.foldr addToLines []

theorem flatten_lines (cs : List Char) : (lines cs).flatten = cs := by
  induction cs with
  | nil => rfl
  | cons c cs ih => exact (flatten_addToLines c _).trans (congrArg _ ih)

/-- A line without a newline, and then its newline. -/
theorem lines_append_newline {line : List Char} (h : '\n' ∉ line) (rest : List Char) :
    lines (line ++ '\n' :: rest) = (line ++ ['\n']) :: lines rest := by
  induction line with
  | nil => rfl
  | cons c line ih =>
    rw [List.mem_cons, not_or] at h
    change addToLines c (lines (line ++ '\n' :: rest)) = _
    rw [ih h.2, addToLines, if_neg (Ne.symm h.1)]
    rfl

theorem lines_eq_nil_iff {cs : List Char} : lines cs = [] ↔ cs = [] := by
  constructor
  · intro h
    rw [← flatten_lines cs, h]
    rfl
  · rintro rfl
    rfl

/-- Every newline but one at the end starts another line. -/
theorem length_lines {cs : List Char} (h : cs ≠ []) :
    (lines cs).length = 1 + cs.dropLast.count '\n' := by
  induction cs with
  | nil => exact absurd rfl h
  | cons c cs ih =>
    change (addToLines c (lines cs)).length = _
    cases cs with
    | nil =>
      unfold addToLines
      split <;> rfl
    | cons d cs =>
      have hrest := ih (List.cons_ne_nil d cs)
      rw [List.dropLast_cons_cons, List.count_cons]
      unfold addToLines
      by_cases hc : c = '\n'
      · rw [if_pos hc, List.length_cons, hrest, if_pos (beq_iff_eq.mpr hc)]
        exact Nat.add_assoc ..
      · rw [if_neg hc, if_neg (by simpa using hc)]
        cases hlines : lines (d :: cs) with
        | nil => exact absurd (lines_eq_nil_iff.mp hlines) (List.cons_ne_nil d cs)
        | cons line rest =>
          rw [hlines] at hrest
          exact hrest

end CapFixture.Text
