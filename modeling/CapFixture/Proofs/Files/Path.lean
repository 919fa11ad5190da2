import CapFixture.Files.Path
import CapFixture.Proofs.Text.Parts

/-!
# Reading paths

A path of names with slashes between them has these names as its steps.

## Main definitions

- `Path.through` — the path of some names
-/

namespace CapFixture.Path

/-- The path from one name to the next. -/
def through (names : List String) : Path := ⟨false, names, false⟩

variable {names : List String}

theorem start_through (names cwd : List String) : (through names).start cwd = cwd := rfl

/-- A slash at the start of a text stands after an empty name, and one at the end before one. -/
theorem splitOn_slash {cs : List Char}
    (h : cs.head? = some '/' ∨ cs.getLast? = some '/') : [] ∈ cs.splitOn '/' := by
  rcases h with h | h
  · obtain ⟨rest, rfl⟩ := List.head?_eq_some_iff.mp h
    rw [List.splitOn, ← List.nil_append ('/' :: rest),
      List.splitOnP_append_cons (p := (· == '/')) _ _ (beq_self_eq_true _)]
    simp
  · obtain ⟨rest, rfl⟩ := List.getLast?_eq_some_iff.mp h
    rw [List.splitOn, List.splitOnP_append_cons (p := (· == '/')) _ _ (beq_self_eq_true _)]
    simp

/-- Names are read back from the text that joins them by slashes. -/
theorem ofString_intercalate (hne : names ≠ [])
    (hnames : ∀ name ∈ names, name ≠ "" ∧ '/' ∉ name.toList) :
    ofString ("/".intercalate names) = through names := by
  have hsplit : ("/".intercalate names).toList.splitOn '/' = names.map String.toList :=
    Text.splitOn_intercalate hne fun name h => (hnames name h).2
  have hkept : names.filter (!·.isEmpty) = names :=
    List.filter_eq_self.mpr fun name hname => by simpa using (hnames name hname).1
  have hends : ¬(("/".intercalate names).toList.head? = some '/' ∨
      ("/".intercalate names).toList.getLast? = some '/') := by
    intro h
    have hempty := splitOn_slash h
    rw [hsplit] at hempty
    obtain ⟨name, hname, h⟩ := List.mem_map.mp hempty
    exact (hnames name hname).1 (String.toList_eq_nil_iff.mp h)
  obtain ⟨hhead, hlast⟩ := not_or.mp hends
  simp only [ofString, through, hsplit, List.map_map, String.ofList_comp_toList, List.map_id, hkept,
    beq_eq_false_iff_ne.mpr hhead, beq_eq_false_iff_ne.mpr hlast, Bool.false_and]

end CapFixture.Path
