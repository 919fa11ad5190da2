import CapFixture.Variant.Validity

/-!
# What the checks of a variant ensure

The checks in their order amount to one condition on the numbers of a variant.
-/

namespace CapFixture.Variant

variable {v : Variant}

/-- A variant without defects. -/
structure Valid (v : Variant) : Prop where
  limit_pos : 0 < v.byteLimit
  limit_le : v.byteLimit ≤ maxByteLimit
  ints_nonempty : v.intSizes ≠ []
  int_supported : ∀ width ∈ v.intSizes, width ∈ supportedWidths
  capability_supported : v.capabilityWidth ∈ supportedWidths
  padding_le : ∀ amount ∈ v.paddingAmounts, amount ≤ v.byteLimit
  step_mem : v.recursionStep ∈ v.intSizes
  depth_le : v.byteLimit / min v.recursionStep v.capabilityWidth ≤ maxDepth

theorem find?_unsupported_eq_none_iff :
    v.intSizes.find? (!supportedWidths.contains ·) = none ↔
      ∀ width ∈ v.intSizes, width ∈ supportedWidths := by
  simp [List.find?_eq_none]

theorem find?_past_limit_eq_none_iff :
    v.paddingAmounts.find? (v.byteLimit < ·) = none ↔
      ∀ amount ∈ v.paddingAmounts, amount ≤ v.byteLimit := by
  simp [List.find?_eq_none]

theorem valid_of_defect?_eq_none (h : v.defect? = none) : Valid v := by
  unfold defect? at h
  by_cases hzero : v.byteLimit = 0
  · rw [if_pos hzero] at h
    cases h
  by_cases hlarge : maxByteLimit < v.byteLimit
  · rw [if_neg hzero, if_pos hlarge] at h
    cases h
  by_cases hempty : v.intSizes.isEmpty = true
  · rw [if_neg hzero, if_neg hlarge, if_pos hempty] at h
    cases h
  rw [if_neg hzero, if_neg hlarge, if_neg hempty] at h
  cases hints : v.intSizes.find? (!supportedWidths.contains ·) with
  | some size => simp only [hints] at h; cases h
  | none =>
    cases hpadding : v.paddingAmounts.find? (v.byteLimit < ·) with
    | some amount =>
      simp only [hints, hpadding] at h
      split at h <;> cases h
    | none =>
      simp only [hints, hpadding] at h
      by_cases hcap : (!supportedWidths.contains v.capabilityWidth) = true
      · rw [if_pos hcap] at h
        cases h
      by_cases hstep : (!v.intSizes.contains v.recursionStep) = true
      · rw [if_neg hcap, if_pos hstep] at h
        cases h
      by_cases hdeep : maxDepth < v.byteLimit / min v.recursionStep v.capabilityWidth
      · rw [if_neg hcap, if_neg hstep, if_pos hdeep] at h
        cases h
      exact {
        limit_pos := Nat.pos_of_ne_zero hzero
        limit_le := Nat.le_of_not_lt hlarge
        ints_nonempty := by simpa using hempty
        int_supported := find?_unsupported_eq_none_iff.mp hints
        capability_supported := by simpa using hcap
        padding_le := find?_past_limit_eq_none_iff.mp hpadding
        step_mem := by simpa using hstep
        depth_le := Nat.le_of_not_lt hdeep }

theorem defect?_eq_none_of_valid (h : Valid v) : v.defect? = none := by
  have hzero : v.byteLimit ≠ 0 := Nat.ne_of_gt h.limit_pos
  have hlarge : ¬ maxByteLimit < v.byteLimit := Nat.not_lt_of_le h.limit_le
  have hdeep : ¬ maxDepth < v.byteLimit / min v.recursionStep v.capabilityWidth :=
    Nat.not_lt_of_le h.depth_le
  unfold defect?
  rw [if_neg hzero, if_neg hlarge, if_neg (by simpa using h.ints_nonempty)]
  simp only [find?_unsupported_eq_none_iff.mpr h.int_supported,
    find?_past_limit_eq_none_iff.mpr h.padding_le]
  rw [if_neg (by simpa using h.capability_supported), if_neg (by simpa using h.step_mem),
    if_neg hdeep]

theorem defect?_eq_none_iff : v.defect? = none ↔ Valid v :=
  ⟨valid_of_defect?_eq_none, defect?_eq_none_of_valid⟩

/-! ### Widths -/

theorem bounds_of_mem_supportedWidths {width : Nat} (h : width ∈ supportedWidths) :
    0 < width ∧ width ≤ 16 := by
  simp only [supportedWidths, List.mem_cons, List.not_mem_nil, or_false] at h
  omega

namespace Valid

theorem int_pos (h : Valid v) {width : Nat} (hw : width ∈ v.intSizes) : 0 < width :=
  (bounds_of_mem_supportedWidths (h.int_supported width hw)).1

theorem int_le (h : Valid v) {width : Nat} (hw : width ∈ v.intSizes) : width ≤ 16 :=
  (bounds_of_mem_supportedWidths (h.int_supported width hw)).2

theorem capability_pos (h : Valid v) : 0 < v.capabilityWidth :=
  (bounds_of_mem_supportedWidths h.capability_supported).1

theorem capability_le (h : Valid v) : v.capabilityWidth ≤ 16 :=
  (bounds_of_mem_supportedWidths h.capability_supported).2

theorem step_pos (h : Valid v) : 0 < v.recursionStep := h.int_pos h.step_mem

theorem step_le (h : Valid v) : v.recursionStep ≤ 16 := h.int_le h.step_mem

/-- Integers and capabilities are sixteen bytes wide at most. -/
theorem size_le (h : Valid v) {kind : Kind} {size : Nat} (ha : v.allows kind size = true)
    (hk : kind ≠ .padding) : size ≤ 16 := by
  cases kind with
  | int => exact h.int_le (by simpa [allows] using ha)
  | ptr =>
    obtain rfl : size = v.capabilityWidth := by simpa [allows] using ha
    exact h.capability_le
  | padding => exact absurd rfl hk

end Valid

end CapFixture.Variant
