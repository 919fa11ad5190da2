import CapFixture.Proofs.Enumeration
import CapFixture.Proofs.TestSuite.Labels

/-!
# From a valid variant to its tests

The checks of a variant are enough for everything that follows: the enumeration and the tests of
its layouts succeed, the search stays within its depth, and no number grows past a small bound.
-/

namespace CapFixture

open Enumeration

variable {v : Variant} {l k : Layout}

namespace Layout.Possible

theorem within (hv : v.Valid) (h : l.Possible v) : l.Within (farthest v) := by
  have htotal := h.total_lt fun _ _ hk ha => hv.size_le ha hk
  refine h.toWellFormed.within ?_
  unfold farthest
  omega

/-- The slot of an integer ends less than two integers past the limit. -/
theorem confusion_within (hv : v.Valid) (h : l.Possible v) {ks : List Layout}
    (hks : l.confusions v = .ok ks) (hk : k ∈ ks) : k.Within (farthest v) := by
  refine within_of_stop_le fun g hg => ?_
  rcases mem_of_mem_confusions hv.capability_pos hks hk hg with ⟨f, hf, hint, rfl⟩ | hg
  · have hstart := h.starts f hf (by simp [hint])
    have hsize := hv.size_le (h.allowed f hf) (by simp [hint])
    have hcapability := hv.capability_le
    have hstop := slot_stop_le v f.offset
    unfold farthest
    omega
  · exact ((h.within hv).2 g hg).2

end Layout.Possible

theorem length_walk_le (hv : v.Valid) {word : List (Kind × Nat)} {last : Layout}
    (hw : Walk v .empty word last) : word.length ≤ Variant.maxDepth + 1 :=
  Nat.le_trans (hw.length_le hv.searchable.toMoving) (Nat.add_le_add_right hv.depth_le 1)

/-- The walk of padding alone is one of the leaves, and it is not recorded. -/
theorem length_recorded_search_empty_lt (hv : v.Valid) :
    (search v .empty).recorded.length < 3 ^ (Variant.maxDepth + 1) := by
  have hdepth : v.byteLimit < Layout.empty.total + (Variant.maxDepth + 1) * stride v := by
    show v.byteLimit < 0 + _
    rw [Nat.zero_add, ← Nat.div_lt_iff_lt_mul (stride_pos hv.searchable.toMoving)]
    exact Nat.lt_succ_of_le hv.depth_le
  exact length_recorded_search_le hv.searchable.toMoving (not_overruns_empty hv.searchable) hdepth

/-- For a variant without defects everything that follows succeeds. No width that it divides by
is zero, no walk of the search is longer than its depth allows, which bounds what the search
records, and no layout on the way, confused or not, reaches past a bound that is small enough for
any machine. -/
theorem pipeline_succeeds (hv : v.defect? = none) :
    ∃ ls tests, enumerate v = .ok ls ∧ TestSuite.all ls v = .ok tests ∧
      (0 < v.recursionStep ∧ 0 < v.capabilityWidth ∧ ∀ width ∈ v.intSizes, 0 < width) ∧
      (∀ word last, Walk v .empty word last → word.length ≤ Variant.maxDepth + 1) ∧
      (search v .empty).recorded.length ≤ 3 ^ (Variant.maxDepth + 1) - 1 ∧
      (∀ l, Visited v l → l.Within (2 * v.byteLimit + 31)) ∧
      (∀ l ∈ ls, (∃ visited, Visited v visited ∧ visited.stripPadding = l) ∧
        l.Within (2 * v.byteLimit + 31) ∧
        ∃ ks, l.confusions v = .ok ks ∧ ∀ k ∈ ks, k.Within (2 * v.byteLimit + 31)) ∧
      2 * v.byteLimit + 31 < 2 ^ 64 := by
  have hv := Variant.defect?_eq_none_iff.mp hv
  obtain ⟨ls, hls, _, hmem⟩ := exists_enumerate hv
  have hpossible : ∀ l ∈ ls, l.Possible v := fun l hl => possible_of_mem_enumerate hv hls hl
  obtain ⟨tests, htests, _⟩ := TestSuite.exists_all_names hv
    (fun l hl => (hpossible l hl).toSolid) fun l hl => (hpossible l hl).roomy hv
  have hrecorded := length_recorded_search_empty_lt hv
  refine ⟨ls, tests, hls, htests, ⟨hv.step_pos, hv.capability_pos, fun _ => hv.int_pos⟩,
    fun word last hw => length_walk_le hv hw, Nat.le_pred_of_lt hrecorded,
    fun l hl => hl.within hv, fun l hl => ⟨?_, (hpossible l hl).within hv, ?_⟩, ?_⟩
  · obtain ⟨visited, hvisited, hpossibility⟩ := exists_visited_of_mem_recorded hv ((hmem l).mp hl)
    exact ⟨visited, hvisited, (Layout.possibility?_eq_some_iff.mp hpossibility).1⟩
  · have hks := Layout.confusions_eq_confused hv.capability_pos fun _ => (hpossible l hl).roomy hv
    exact ⟨_, hks, fun k hk => (hpossible l hl).confusion_within hv hks hk⟩
  · have hlimit := hv.limit_le
    unfold Variant.maxByteLimit at hlimit
    omega

/-- The variant with the widest capabilities that is built in. -/
theorem pipeline_wide_succeeds :
    ∃ ls tests, enumerate Variant.wide = .ok ls ∧ TestSuite.all ls Variant.wide = .ok tests ∧
      (search Variant.wide .empty).recorded.length ≤ 19682 := by
  obtain ⟨ls, tests, hls, htests, _, _, hrecorded, _⟩ :=
    pipeline_succeeds (show Variant.wide.defect? = none by decide)
  exact ⟨ls, tests, hls, htests, hrecorded⟩

end CapFixture
