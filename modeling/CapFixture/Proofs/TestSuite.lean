import CapFixture.TestSuite
import CapFixture.Proofs.Mutation
import CapFixture.Proofs.Results
import CapFixture.Proofs.TestProgram.Access

/-!
# When tests can be written

A test can be written if a word holds the end of the layout that it writes, and if every field that
it writes or reads has a C type. Padding-free layouts of a valid variant have C types only, and then
the end of what is written is all that can go wrong.
-/

namespace CapFixture

open TestProgram

variable {v : Variant} {l : Layout} {ls : List Layout}

namespace Layout

/-- A word holds the end of the layout if words hold the ends of its fields. -/
theorem total_lt_of_stop_lt (h : ∀ f ∈ l.fields, f.stop < wordSize) : l.total < wordSize := by
  have hwithin : l.Within (wordSize - 1) :=
    within_of_stop_le fun f hf => Nat.le_sub_one_of_lt (h f hf)
  exact Nat.lt_of_le_of_lt hwithin.1 (by decide)

/-- Words hold the ends of all layouts that the enumeration of a valid variant yields. -/
theorem Possible.roomy (hv : v.Valid) (h : l.Possible v) : l.Roomy v where
  fits := by
    intro f hf
    have htotal := h.total_lt fun _ _ hk ha => hv.size_le ha hk
    have hstop := h.toWellFormed.stop_le_total hf
    have hlimit := hv.limit_le
    unfold Variant.maxByteLimit at hlimit
    unfold wordSize
    omega
  slots_fit := by
    intro f hf hint
    have hstart := h.starts f hf (by simp [hint])
    have hsize := hv.size_le (h.allowed f hf) (by simp [hint])
    have hstop := slot_stop_le v f.offset
    have hcapability := hv.capability_le
    have hlimit := hv.limit_le
    unfold Variant.maxByteLimit at hlimit
    unfold wordSize
    omega

/-- There is room for a layout without integers where a word holds its end. -/
theorem Solid.roomy (h : l.Solid v) (htotal : l.total < wordSize)
    (hint : l.has .int = true → l.Roomy v) : l.Roomy v := by
  by_cases hhas : l.has .int = true
  · exact hint hhas
  · refine ⟨fun f hf => Nat.lt_of_le_of_lt (h.stop_le_total hf) htotal, fun f hf hkind => ?_⟩
    exact absurd (by simpa [has] using ⟨f, hf, hkind⟩) hhas

theorem Roomy.writable (h : l.Roomy v) (hl : l.Accessible v) : l.Writable v :=
  ⟨hl, total_lt_of_stop_lt h.fits⟩

end Layout

namespace TestProgram.Scenario

variable {s : Scenario}

theorem statements_eq_error (h : wordSize ≤ s.written.total) :
    s.statements = .error (.overflow .add) := by
  rw [statements, Layout.wordTotal_eq, Arithmetic.checked_of_le h]
  rfl

theorem failsWith_statements (hw : s.written.Accessible v) (hr : s.read.Accessible v) :
    FailsWith (.overflow .add) s.statements := by
  rcases Nat.lt_or_ge s.written.total wordSize with hfits | hlarge
  · exact .of_ok ⟨_, statements_eq ⟨hw, hfits⟩ hr⟩
  · exact .inr (statements_eq_error hlarge)

/-- The buffer of a test that has been written has a size. -/
theorem total_lt_of_statements_eq_ok {test : List Statement} (h : s.statements = .ok test) :
    s.written.total < wordSize := by
  by_contra hlarge
  rw [statements_eq_error (Nat.le_of_not_lt hlarge)] at h
  cases h

end TestProgram.Scenario

namespace TestSuite

/-- What is collected from numbered elements does not depend on their numbers. -/
theorem flatMap_zipIdx_fst {α β : Type} (as : List α) (f : α → List β) :
    (as.zipIdx.flatMap fun p => f p.1) = as.flatMap f := by
  conv_rhs => rw [← List.zipIdx_map_fst 0 as, List.flatMap_map]

/-- The groups are the layouts in order. -/
theorem flatten_groups (ls : List Layout) : (groups ls).flatten = ls := by
  induction ls using groups.induct with
  | case1 => simp [groups]
  | case2 l rest ih =>
    rw [groups, List.flatten_cons, ih, List.cons_append, List.take_append_drop]

theorem mem_readBack {read : Layout} (h : read ∈ readBack l) :
    read = l ∨ read = l.without .ptr := by
  unfold readBack at h
  split at h
  · simpa using h
  · exact .inl (List.mem_singleton.mp h)

theorem failing_eq {s : Scenario} (hw : s.written.Writable v) (hr : s.read.Accessible v)
    (name report : String) :
    failing name report s = .ok ⟨name, .single s.body, .failure report⟩ := by
  rw [failing, Scenario.statements_eq hw hr]
  rfl

theorem failsWith_failing {s : Scenario} (hw : s.written.Accessible v)
    (hr : s.read.Accessible v) (name report : String) :
    FailsWith (.overflow .add) (failing name report s) :=
  (Scenario.failsWith_statements hw hr).bind fun _ _ => .ok _ _

theorem total_lt_of_failing_eq_ok {s : Scenario} {name report : String} {test : TestCase}
    (h : failing name report s = .ok test) : s.written.total < wordSize := by
  obtain ⟨statements, hstatements, _⟩ := bind_eq_ok_iff.mp h
  exact Scenario.total_lt_of_statements_eq_ok hstatements

end TestSuite

end CapFixture
