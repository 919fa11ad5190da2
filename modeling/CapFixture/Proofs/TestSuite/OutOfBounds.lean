import CapFixture.Proofs.Enumeration
import CapFixture.Proofs.TestProgram.Run
import CapFixture.Proofs.TestSuite

/-!
# Far reads miss their buffer

No buffer of an enumerated layout is as large as the displacement. Every load of a displaced test
misses the buffer with all its bytes, and every run of the test ends at a load.

## Main definitions

- `TestProgram.Misses` — a test whose loads miss its buffer
- `TestSuite.sides` — to which sides tests are displaced
- `TestSuite.displaced` — the displaced test of a layout
-/

namespace CapFixture

open TestProgram

namespace TestProgram

/-- A test whose loads miss its buffer, so that no run gets past them. -/
structure Misses (width : Nat) (test : List Statement) : Prop where
  outside : ∀ load ∈ loads test, load.1.Outside width (allocated test)
  fails : ∀ (m : Machine width) start,
    ∃ load ∈ loads test, m.run start test = .error (.outOfBounds load.1)

theorem Scenario.misses_body {v : Variant} {s : Scenario} (hv : v.Valid)
    (hw : s.written.Solid v) (hne : s.read.fields ≠ [])
    (houtside : ∀ f ∈ s.read.fields,
      (f.access s.displacement).Outside v.capabilityWidth s.written.total) :
    Misses v.capabilityWidth s.body := by
  have hloads : ∀ load ∈ loads s.body, load.1.Outside v.capabilityWidth (allocated s.body) :=
    forall_mem_loads_body.mpr houtside
  refine ⟨hloads, fun m start => ?_⟩
  have hsome : loads s.body ≠ [] := by simpa [loads_body] using hne
  obtain ⟨load, hload⟩ := List.exists_mem_of_ne_nil _ hsome
  exact Machine.exists_run_eq_outOfBounds hv hw m start
    ⟨load, hload, Access.not_inside_of_outside hv.capability_pos (hloads load hload)⟩

end TestProgram

namespace TestSuite

variable {v : Variant} {l : Layout} {ls : List Layout}

/-- The two sides of a buffer, each with its name and how far the pointer is moved. -/
def sides : List (String × Int) := [("oobleft", -displacement), ("oobright", displacement)]

/-- The displaced test of a layout. -/
def displaced (l : Layout) (index : Nat) (opacity : Opacity) (side : String × Int) : TestCase where
  name := "combostorm_" ++ side.1 ++ toString index ++ opacity.suffix
  program := .single (Scenario.body ⟨l, l, side.2, opacity⟩)
  expectation := .failure Expectation.safetyError

theorem outOfBounds_eq (h : ∀ l ∈ ls, l.Writable v) :
    outOfBounds ls = .ok ((ls.zipIdx.map fun (l, index) =>
      Opacity.all.map fun opacity => sides.map (displaced l index opacity)).flatten.flatten) := by
  have htests : (ls.zipIdx.mapM fun (l, index) => Opacity.all.mapM fun (opacity : Opacity) =>
      sides.mapM fun (side, shift) =>
        failing ("combostorm_" ++ side ++ toString index ++ opacity.suffix)
          Expectation.safetyError ⟨l, l, shift, opacity⟩) =
      .ok (ls.zipIdx.map fun (l, index) =>
        Opacity.all.map fun opacity => sides.map (displaced l index opacity)) := by
    refine mapM_eq_ok_map ?_
    rintro ⟨l, index⟩ hl
    have hl := h l (List.fst_mem_of_mem_zipIdx hl)
    refine mapM_eq_ok_map fun opacity _ => mapM_eq_ok_map ?_
    rintro ⟨side, shift⟩ _
    exact failing_eq (s := ⟨l, l, shift, opacity⟩) hl hl.accessible _ _
  unfold sides at htests
  rw [outOfBounds, htests]
  rfl

theorem failsWith_outOfBounds (h : ∀ l ∈ ls, l.Accessible v) :
    FailsWith (.overflow .add) (outOfBounds ls) := by
  refine FailsWith.bind (FailsWith.mapM ?_) fun _ _ => .ok _ _
  rintro ⟨l, index⟩ hl
  have hl := h l (List.fst_mem_of_mem_zipIdx hl)
  refine .mapM fun opacity _ => .mapM ?_
  rintro ⟨side, shift⟩ _
  exact failsWith_failing (s := ⟨l, l, shift, opacity⟩) hl hl _ _

/-- A word holds the end of every layout whose displaced tests have been written. -/
theorem total_lt_of_outOfBounds_eq_ok {tests : List TestCase} (h : outOfBounds ls = .ok tests)
    (hl : l ∈ ls) : l.total < wordSize := by
  obtain ⟨groups, hgroups, _⟩ := bind_eq_ok_iff.mp h
  obtain ⟨index, hindex⟩ := List.mem_iff_getElem?.mp hl
  obtain ⟨pairs, _, hpairs⟩ :=
    exists_mem_of_mapM_eq_ok hgroups (List.mem_zipIdx_iff_getElem?.mpr hindex : (l, index) ∈ _)
  obtain ⟨pair, _, hpair⟩ := exists_mem_of_mapM_eq_ok hpairs (List.mem_cons_self : _ ∈ Opacity.all)
  obtain ⟨test, _, htest⟩ := exists_mem_of_mapM_eq_ok hpair List.mem_cons_self
  exact total_lt_of_failing_eq_ok htest

theorem mem_outOfBounds_iff {tests : List TestCase} {test : TestCase}
    (h : ∀ l ∈ ls, l.Writable v) (htests : outOfBounds ls = .ok tests) :
    test ∈ tests ↔ ∃ l index, ls[index]? = some l ∧ ∃ opacity ∈ Opacity.all, ∃ side ∈ sides,
      test = displaced l index opacity side := by
  obtain rfl := Except.ok.inj ((outOfBounds_eq h).symm.trans htests)
  simp only [List.mem_flatten, List.mem_map]
  constructor
  · rintro ⟨_, ⟨_, ⟨⟨l, index⟩, hl, rfl⟩, hpair⟩, htest⟩
    obtain ⟨opacity, hopacity, rfl⟩ := List.mem_map.mp hpair
    obtain ⟨side, hside, rfl⟩ := List.mem_map.mp htest
    exact ⟨l, index, List.mem_zipIdx_iff_getElem?.mp hl, opacity, hopacity, side, hside, rfl⟩
  · rintro ⟨l, index, hl, opacity, hopacity, side, hside, rfl⟩
    refine ⟨sides.map (displaced l index opacity), ⟨_, ⟨(l, index), ?_, rfl⟩, ?_⟩, ?_⟩
    · exact List.mem_zipIdx_iff_getElem?.mpr hl
    · exact List.mem_map_of_mem hopacity
    · exact List.mem_map_of_mem hside

/-- A field that is moved by the displacement has no byte in the buffer. -/
theorem outside_of_mem_sides (hv : v.Valid) (hl : l.Possible v) {side : String × Int}
    (hside : side ∈ sides) {f : Field} (hf : f ∈ l.fields) :
    (f.access side.2).Outside v.capabilityWidth l.total := by
  have htotal := hl.total_lt fun _ _ hkind hallows => hv.size_le hallows hkind
  have hlimit := hv.limit_le
  have hstop := hl.toWellFormed.stop_le_total hf
  rintro i ⟨hlow, hhigh⟩
  rw [(hl.toSolid.accessible hv f hf).access_stop] at hhigh
  rw [Field.access_start] at hlow
  simp only [sides, List.mem_cons, List.not_mem_nil, or_false] at hside
  rcases hside with rfl | rfl
  · simp only [displacement, Variant.maxByteLimit] at *
    omega
  · simp only [displacement, Variant.maxByteLimit] at *
    omega

/-- For every layout of the enumeration, on either side and however the pointer is hidden, the moved
fields have no byte in the buffer. The displaced test loads just these fields, and so no run of it
gets past its loads. -/
theorem outOfBounds_misses (hv : v.defect? = none) :
    ∃ ls tests, enumerate v = .ok ls ∧ outOfBounds ls = .ok tests ∧
      ∀ (l : Layout) (index : Nat), ls[index]? = some l → ∀ opacity ∈ Opacity.all,
        ∀ side shift, (side, shift) ∈ [("oobleft", -displacement), ("oobright", displacement)] →
          (∀ f ∈ l.fields, ∀ i : Int, f.offset + shift ≤ i → i < f.stop + shift →
            i < 0 ∨ l.total ≤ i) ∧
          ∃ test, ⟨"combostorm_" ++ side ++ toString index ++ opacity.suffix, .single test,
              .failure Expectation.safetyError⟩ ∈ tests ∧
            allocated test = l.total ∧
            (loads test).map Prod.fst = l.fields.map (Field.access · shift) ∧
            Misses v.capabilityWidth test := by
  have hv := Variant.defect?_eq_none_iff.mp hv
  obtain ⟨ls, hls, _⟩ := exists_enumerate hv
  have hpossible : ∀ l ∈ ls, l.Possible v := fun l hl => possible_of_mem_enumerate hv hls hl
  have haccessible : ∀ l ∈ ls, l.Accessible v := fun l hl =>
    (hpossible l hl).toSolid.accessible hv
  have hwritable : ∀ l ∈ ls, l.Writable v := fun l hl =>
    ((hpossible l hl).roomy hv).writable (haccessible l hl)
  refine ⟨ls, _, hls, outOfBounds_eq hwritable, ?_⟩
  intro l index hl opacity hopacity side shift hside
  have hmem := List.mem_of_getElem? hl
  have houtside : ∀ f ∈ l.fields, (f.access shift).Outside v.capabilityWidth l.total :=
    fun f hf => outside_of_mem_sides hv (hpossible l hmem) hside hf
  refine ⟨?_, Scenario.body ⟨l, l, shift, opacity⟩, ?_, rfl, ?_, ?_⟩
  · intro f hf i hlow hhigh
    apply houtside f hf i
    rw [Access.Covers, (haccessible l hmem f hf).access_stop, Field.access_start]
    omega
  · exact (mem_outOfBounds_iff hwritable (outOfBounds_eq hwritable)).mpr
      ⟨l, index, hl, opacity, hopacity, (side, shift), hside, rfl⟩
  · exact Scenario.map_fst_loads_body _
  · exact Scenario.misses_body hv (hpossible l hmem).toSolid (hpossible l hmem).nonempty houtside

/-- The first test of an integer of eight bytes. -/
theorem outOfBounds_eight_misses :
    enumerate ⟨"eight", 1, [8], [0], 8, 8⟩ =
        .ok [⟨[⟨0, .int, 8⟩]⟩, ⟨[⟨0, .ptr, 8⟩]⟩] ∧
      ∃ tests test,
        outOfBounds [⟨[⟨0, .int, 8⟩]⟩, ⟨[⟨0, .ptr, 8⟩]⟩] = .ok tests ∧
        ⟨"combostorm_oobleft0", .single test, .failure Expectation.safetyError⟩ ∈ tests ∧
        (loads test).map Prod.fst = [⟨.int64, -0x6660⟩] ∧ Misses 8 test := by
  let v : Variant := ⟨"eight", 1, [8], [0], 8, 8⟩
  have henumerate : enumerate v = .ok [⟨[⟨0, .int, 8⟩]⟩, ⟨[⟨0, .ptr, 8⟩]⟩] := by cbv
  obtain ⟨ls, tests, hls, htests, hmisses⟩ :=
    outOfBounds_misses (show v.defect? = none by decide)
  obtain rfl := Except.ok.inj (henumerate.symm.trans hls)
  obtain ⟨_, test, hmem, _, hloads, hmiss⟩ := hmisses ⟨[⟨0, .int, 8⟩]⟩ 0 rfl ⟨true, true⟩
    (by decide) "oobleft" (-displacement) List.mem_cons_self
  exact ⟨henumerate, tests, test, htests, hmem, hloads, hmiss⟩

end TestSuite

end CapFixture
