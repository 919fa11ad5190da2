import CapFixture.Proofs.TestSuite.Confusions
import CapFixture.Proofs.TestSuite.Names
import CapFixture.Proofs.TestSuite.OutOfBounds
import CapFixture.Proofs.TestSuite.RoundTrips
import Mathlib.Algebra.BigOperators.Ring.List

/-!
# The names of a test suite

How many tests there are and what they are called. No two of them have the same name.

## Main definitions

- `TestSuite.labels` — what the names of all tests spell, in the order of the tests
-/

namespace CapFixture

open TestProgram

/-! ### Lists with numbers -/

section
variable {α β : Type}

theorem map_zipIdx_snd (as : List α) (f : Nat → β) :
    (as.zipIdx.map fun p => f p.2) = (List.range as.length).map f := by
  have hindices : as.zipIdx.map Prod.snd = List.range as.length := by
    rw [List.zipIdx_map_snd, List.range_eq_range']
  rw [← hindices, List.map_map]
  rfl

theorem flatMap_zipIdx_snd (as : List α) (f : Nat → List β) :
    (as.zipIdx.flatMap fun p => f p.2) = (List.range as.length).flatMap f := by
  rw [List.flatMap_def, List.flatMap_def, map_zipIdx_snd]

/-- Lists that tell what they were made for have no element in common. -/
theorem nodup_flatMap {as : List α} {f : α → List β} (key : α → Nat) (number : β → Nat)
    (hkeys : (as.map key).Nodup) (hf : ∀ a ∈ as, (f a).Nodup)
    (hnumber : ∀ a, ∀ b ∈ f a, number b = key a) : (as.flatMap f).Nodup := by
  refine List.nodup_flatMap.mpr ⟨hf, (List.pairwise_map.mp hkeys).imp ?_⟩
  intro a a' hne b hb hb'
  exact hne ((hnumber a b hb).symm.trans (hnumber a' b hb'))

end

namespace TestSuite

variable {v : Variant} {ls : List Layout}

/-! ### Labels -/

/-- The tests of a layout that is read outside of its buffer. -/
def displacedLabels (index : Nat) : List TestLabel :=
  Opacity.all.flatMap fun opacity => [.displaced true index opacity, .displaced false index opacity]

/-- The tests of a layout and one of its confused layouts. -/
def confusedLabels (index confusedIndex : Nat) : List TestLabel :=
  Opacity.all.flatMap fun opacity =>
    [.confused index confusedIndex true opacity, .confused index confusedIndex false opacity]

/-- What the names of all tests spell, in the order of the tests. -/
def labels (ls : List Layout) (v : Variant) : List TestLabel :=
  (List.range (groups ls).length).map .roundTrip ++
    (List.range ls.length).flatMap displacedLabels ++
    ls.zipIdx.flatMap fun (l, index) =>
      (List.range (l.confused v).length).flatMap (confusedLabels index)

theorem mem_displacedLabels {label : TestLabel} {index : Nat}
    (h : label ∈ displacedLabels index) :
    ∃ left opacity, label = .displaced left index opacity := by
  obtain ⟨opacity, _, h⟩ := List.mem_flatMap.mp h
  rcases List.mem_cons.mp h with rfl | h
  · exact ⟨true, opacity, rfl⟩
  · exact ⟨false, opacity, List.mem_singleton.mp h⟩

theorem mem_confusedLabels {label : TestLabel} {index confusedIndex : Nat}
    (h : label ∈ confusedLabels index confusedIndex) :
    ∃ reads opacity, label = .confused index confusedIndex reads opacity := by
  obtain ⟨opacity, _, h⟩ := List.mem_flatMap.mp h
  rcases List.mem_cons.mp h with rfl | h
  · exact ⟨true, opacity, rfl⟩
  · exact ⟨false, opacity, List.mem_singleton.mp h⟩

/-- No two tests have the same label. -/
theorem nodup_labels (ls : List Layout) (v : Variant) : (labels ls v).Nodup := by
  have hdisplaced : ((List.range ls.length).flatMap displacedLabels).Nodup := by
    refine nodup_flatMap id TestLabel.index (by simpa using List.nodup_range) ?_ ?_
    · intro index _
      simp [displacedLabels, Opacity.all]
    · intro index label h
      obtain ⟨left, opacity, rfl⟩ := mem_displacedLabels h
      rfl
  have hconfused : (ls.zipIdx.flatMap fun p =>
      (List.range (p.1.confused v).length).flatMap (confusedLabels p.2)).Nodup := by
    refine nodup_flatMap Prod.snd TestLabel.index ?_ ?_ ?_
    · rw [List.zipIdx_map_snd]
      exact List.nodup_range'
    · intro p _
      refine nodup_flatMap id TestLabel.confusedIndex (by simpa using List.nodup_range) ?_ ?_
      · intro confusedIndex _
        simp [confusedLabels, Opacity.all]
      · intro confusedIndex label h
        obtain ⟨reads, opacity, rfl⟩ := mem_confusedLabels h
        rfl
    · intro p label h
      obtain ⟨confusedIndex, _, h⟩ := List.mem_flatMap.mp h
      obtain ⟨reads, opacity, rfl⟩ := mem_confusedLabels h
      rfl
  rw [labels, List.nodup_append, List.nodup_append]
  refine ⟨⟨?_, hdisplaced, ?_⟩, hconfused, ?_⟩
  · exact List.nodup_range.map fun i j h => TestLabel.roundTrip.inj h
  · intro label hgroup label' hlabel'
    obtain ⟨group, _, rfl⟩ := List.mem_map.mp hgroup
    obtain ⟨index, _, h⟩ := List.mem_flatMap.mp hlabel'
    obtain ⟨left, opacity, rfl⟩ := mem_displacedLabels h
    simp
  · intro label hlabel label' hlabel'
    obtain ⟨p, _, h⟩ := List.mem_flatMap.mp hlabel'
    obtain ⟨confusedIndex, _, h⟩ := List.mem_flatMap.mp h
    obtain ⟨reads, opacity, rfl⟩ := mem_confusedLabels h
    rcases List.mem_append.mp hlabel with hgroup | hdisplaced
    · obtain ⟨group, _, rfl⟩ := List.mem_map.mp hgroup
      simp
    · obtain ⟨index, _, h⟩ := List.mem_flatMap.mp hdisplaced
      obtain ⟨left, opacity, rfl⟩ := mem_displacedLabels h
      simp

theorem length_groups (ls : List Layout) : (groups ls).length = (ls.length + 9) / 10 := by
  induction ls using groups.induct with
  | case1 => simp [groups]
  | case2 l rest ih =>
    rw [groups, List.length_cons, ih, List.length_drop, List.length_cons]
    simp only [groupSize]
    omega

theorem length_labels (ls : List Layout) (v : Variant) :
    (labels ls v).length = (ls.length + 9) / 10 + 8 * ls.length +
      8 * (ls.map fun l => (l.confused v).length).sum := by
  have hdisplaced : ∀ index, (displacedLabels index).length = 8 := fun _ => rfl
  have hconfused : ∀ index confusedIndex, (confusedLabels index confusedIndex).length = 8 :=
    fun _ _ => rfl
  have hsum : (ls.zipIdx.map fun p => 8 * (p.1.confused v).length).sum =
      8 * (ls.map fun l => (l.confused v).length).sum := by
    have hlayouts : (ls.zipIdx.map Prod.fst) = ls := List.zipIdx_map_fst 0 ls
    rw [List.sum_map_mul_left]
    conv_rhs => rw [← hlayouts, List.map_map]
    rfl
  simp only [labels, List.length_append, List.length_map, List.length_range, length_groups,
    List.length_flatMap, hdisplaced, hconfused, List.map_const', List.sum_replicate_nat,
    Nat.mul_comm _ 8, hsum]

/-! ### Names -/

theorem map_name_displaced (l : Layout) (index : Nat) :
    (Opacity.all.flatMap fun opacity => sides.map (displaced l index opacity)).map TestCase.name =
      (displacedLabels index).map TestLabel.name := by
  have hname : ∀ opacity left shift, (displaced l index opacity
      (if left then "oobleft" else "oobright", shift)).name =
        (TestLabel.displaced left index opacity).name := by
    intro opacity left shift
    apply String.toList_injective
    rw [TestLabel.toList_name]
    unfold displaced
    cases left <;> simp [TestLabel.family, TestLabel.index, TestLabel.ending]
  rw [displacedLabels, List.map_flatMap, List.map_flatMap]
  refine List.flatMap_congr fun opacity _ => ?_
  exact congrArg₂ (fun a b => [a, b]) (hname opacity true _) (hname opacity false _)

theorem map_name_confused (l k : Layout) (index confusedIndex : Nat) :
    (Opacity.all.flatMap fun opacity =>
      [readingTest l k (confusionName index confusedIndex) opacity,
        writingTest l k (confusionName index confusedIndex) opacity]).map TestCase.name =
      (confusedLabels index confusedIndex).map TestLabel.name := by
  have hname : ∀ opacity reads, confusionName index confusedIndex ++ TestLabel.direction reads ++
      opacity.suffix = (TestLabel.confused index confusedIndex reads opacity).name := by
    intro opacity reads
    apply String.toList_injective
    rw [TestLabel.toList_name]
    unfold confusionName
    simp [TestLabel.family, TestLabel.index, TestLabel.ending]
  rw [confusedLabels, List.map_flatMap, List.map_flatMap]
  refine List.flatMap_congr fun opacity _ => ?_
  exact congrArg₂ (fun a b => [a, b]) (hname opacity true) (hname opacity false)

theorem exists_all_names (hv : v.Valid) (h : ∀ l ∈ ls, l.Solid v) (hroom : ∀ l ∈ ls, l.Roomy v) :
    ∃ tests, all ls v = .ok tests ∧
      tests.map TestCase.name = (labels ls v).map TestLabel.name := by
  have hwritable : ∀ l ∈ ls, l.Writable v := fun l hl =>
    (hroom l hl).writable ((h l hl).accessible hv)
  refine ⟨_, bind_eq_ok_iff.mpr ⟨_, roundTrips_eq hwritable, bind_eq_ok_iff.mpr ⟨_,
    outOfBounds_eq hwritable, bind_eq_ok_iff.mpr ⟨_,
      confusions_eq hv h fun l hl _ => hroom l hl, rfl⟩⟩⟩, ?_⟩
  simp only [labels, List.map_append]
  refine congrArg₂ _ (congrArg₂ _ ?_ ?_) ?_
  · have hname : ∀ index, "combostorm_success" ++ toString index =
        (TestLabel.roundTrip index).name := by
      intro index
      simp [TestLabel.name, TestLabel.family, TestLabel.index, TestLabel.ending]
    rw [List.map_map, List.map_map, ← map_zipIdx_snd]
    exact List.map_congr_left fun p _ => hname p.2
  · rw [flatten_flatten_map, List.map_flatMap, List.map_flatMap, ← flatMap_zipIdx_snd]
    exact List.flatMap_congr fun p _ => map_name_displaced p.1 p.2
  · rw [List.map_flatMap, List.map_flatMap]
    refine List.flatMap_congr fun p _ => ?_
    rw [List.map_flatMap, List.map_flatMap, ← flatMap_zipIdx_snd]
    exact List.flatMap_congr fun q _ => map_name_confused p.1 q.1 p.2 q.2

theorem failsWith_all (hv : v.Valid) (h : ∀ l ∈ ls, l.Solid v) :
    FailsWith (.overflow .add) (all ls v) := by
  have haccessible : ∀ l ∈ ls, l.Accessible v := fun l hl => (h l hl).accessible hv
  refine (failsWith_roundTrips haccessible).bind fun _ _ => ?_
  refine (failsWith_outOfBounds haccessible).bind fun _ _ => ?_
  exact (failsWith_confusions hv h).bind fun _ _ => .ok _ _

theorem roomy_of_all_eq_ok (hv : v.Valid) (h : ∀ l ∈ ls, l.Solid v) {tests : List TestCase}
    (htests : all ls v = .ok tests) : ∀ l ∈ ls, l.Roomy v := by
  intro l hl
  obtain ⟨_, hroundTrips, hrest⟩ := bind_eq_ok_iff.mp htests
  obtain ⟨_, _, hrest⟩ := bind_eq_ok_iff.mp hrest
  obtain ⟨_, hconfusions, _⟩ := bind_eq_ok_iff.mp hrest
  exact (h l hl).roomy (total_lt_of_roundTrips_eq_ok hroundTrips hl)
    (roomy_of_confusions_eq_ok hv hconfusions hl (h l hl))

/-- Where there is too little room for a layout, there are no tests. -/
theorem all_eq_error (hv : v.Valid) (h : ∀ l ∈ ls, l.Solid v) (hroom : ¬ ∀ l ∈ ls, l.Roomy v) :
    all ls v = .error (.overflow .add) := by
  refine (failsWith_all hv h).resolve_left ?_
  rintro ⟨tests, htests⟩
  exact hroom (roomy_of_all_eq_ok hv h htests)

/-- The tests of layouts without padding have different names, each made from a label. -/
theorem exists_all_labelled (hv : v.Valid) (h : ∀ l ∈ ls, l.Solid v)
    (hroom : ∀ l ∈ ls, l.Roomy v) :
    ∃ tests, all ls v = .ok tests ∧ (tests.map TestCase.name).Nodup ∧
      ∀ test ∈ tests, ∃ label : TestLabel, test.name = label.name := by
  obtain ⟨tests, htests, hmap⟩ := exists_all_names hv h hroom
  refine ⟨tests, htests, hmap ▸ (nodup_labels ls v).map TestLabel.name_injective, ?_⟩
  intro test htest
  have hname := List.mem_map_of_mem (f := TestCase.name) htest
  rw [hmap] at hname
  obtain ⟨label, _, hname⟩ := List.mem_map.mp hname
  exact ⟨label, hname.symm⟩

end TestSuite

end CapFixture
