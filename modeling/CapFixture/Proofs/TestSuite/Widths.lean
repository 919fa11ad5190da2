import CapFixture.Proofs.Enumeration.Overlap
import CapFixture.Proofs.TestSuite.ToldApart

/-!
# Which integer widths are tested

The search appends integers of its step only. Integers of other widths come from the grid, which has
a layout of every width for each gap. A valid variant may be without gaps, and then nothing has an
integer of another width than the step.

## Main definitions

- `Layout.HasInt` — one of the fields is an integer of this width
- `TestProgram.Uses` — a test stores or loads an integer of this width
- `Variant.gapless` — a variant without gaps
-/

namespace CapFixture

open Enumeration TestProgram

variable {v : Variant} {l last : Layout} {ls : List Layout} {width gap lead : Nat}
  {word : List (Kind × Nat)} {s : Scenario}

/-- One of the fields is an integer of this width. -/
def Layout.HasInt (l : Layout) (width : Nat) : Prop :=
  ∃ f ∈ l.fields, f.kind = .int ∧ f.size = width

/-! ### What the strategies find -/

namespace Enumeration

theorem hasInt_gridLayout_iff {other : Nat} (hother : 0 < other) :
    (gridLayout v other gap lead).HasInt width ↔ width = other := by
  constructor
  · rintro ⟨f, hf, _, rfl⟩
    obtain ⟨k, _, rfl⟩ := (mem_gridLayout hother).mp hf
    rfl
  · rintro rfl
    exact ⟨_, (mem_gridLayout hother).mpr ⟨0, .inl rfl, rfl⟩, rfl, rfl⟩

/-- The grid has integers of all widths, if there is a gap. -/
theorem exists_hasInt_grid_iff (hv : v.Valid) (hw : width ∈ v.intSizes) :
    (∃ l ∈ (grid v).recorded, l.HasInt width) ↔ v.paddingAmounts ≠ [] := by
  constructor
  · rintro ⟨l, hl, _⟩
    obtain ⟨_, _, gap, hgap, _⟩ := (mem_grid_iff hv).mp hl
    exact List.ne_nil_of_mem hgap
  · intro hgaps
    obtain ⟨gap, hgap⟩ := List.exists_mem_of_ne_nil _ hgaps
    have hfound : GridOfWidth v width (gridLayout v width gap 0) :=
      (gridOfWidth_iff hv hw).mpr ⟨gap, hgap, 0, .inl rfl, rfl⟩
    exact ⟨_, (mem_grid_iff hv).mpr ⟨width, hw, hfound⟩,
      (hasInt_gridLayout_iff (hv.int_pos hw)).mpr rfl⟩

/-- A walk appends no integers but those of the step. -/
theorem Walk.eq_step_of_hasInt (hv : v.Moving) (hw : Walk v l word last)
    (hl : l.HasInt width → width = v.recursionStep) (hlast : last.HasInt width) :
    width = v.recursionStep := by
  induction hw with
  | stop => exact hl hlast
  | @move l next last kind size word _ hm hn _ ih =>
    refine ih ?_ hlast
    rintro ⟨f, hf, hkind, hsize⟩
    rw [eq_extend_of_mem_moves hv hm hn] at hf
    rcases Layout.mem_extend.mp hf with hf | rfl
    · exact hl ⟨f, hf, hkind, hsize⟩
    · simp only [moves, List.mem_cons, Prod.mk.injEq, List.not_mem_nil, or_false] at hm
      subst hkind
      simpa [← hsize] using hm

/-- The search has integers of its step and of no other width. -/
theorem exists_hasInt_search_iff (hv : v.Searchable) :
    (∃ l ∈ (search v .empty).recorded, l.HasInt width) ↔ width = v.recursionStep := by
  constructor
  · rintro ⟨l, hl, f, hf, hint⟩
    obtain ⟨word, last, hwalk, _, hlast⟩ := (mem_recorded_search hv).mp hl
    obtain ⟨rfl, _⟩ := Layout.possibility?_eq_some_iff.mp hlast
    refine hwalk.eq_step_of_hasInt hv.toMoving ?_ ⟨f, (Layout.mem_stripPadding.mp hf).1, hint⟩
    rintro ⟨f, hf, _⟩
    cases hf
  · rintro rfl
    -- integers in all slots are one of the fillings
    let kinds : List Kind := List.replicate (slotCount v) .int
    have hfirst : ⟨0 * v.recursionStep, .int, v.recursionStep⟩ ∈
        (slotted v.recursionStep kinds).fields :=
      (mk_mem_slotted hv.step_pos (by decide)).mpr
        (List.getElem?_replicate_of_lt (Nat.succ_pos _))
    have hmoves : ∀ kind ∈ kinds, (kind, v.recursionStep) ∈ moves v := by
      intro kind hkind
      rw [List.eq_of_mem_replicate hkind]
      simp [moves]
    exact ⟨_, slotted_mem_search hv List.length_replicate hmoves (List.ne_nil_of_mem hfirst),
      _, hfirst, rfl, rfl⟩

end Enumeration

/-- The layouts of a variant have integers of a width if there is a gap, and of the step anyway. -/
theorem exists_hasInt_iff (hv : v.Valid) (hls : enumerate v = .ok ls) (hw : width ∈ v.intSizes) :
    (∃ l ∈ ls, l.HasInt width) ↔ v.paddingAmounts ≠ [] ∨ width = v.recursionStep := by
  obtain ⟨ls', hls', _, hmem⟩ := exists_enumerate hv
  obtain rfl := Except.ok.inj (hls.symm.trans hls')
  rw [← exists_hasInt_grid_iff hv hw, ← exists_hasInt_search_iff hv.searchable]
  simp only [hmem, or_and_right, exists_or]

/-! ### What the tests use -/

namespace TestProgram

/-- The tests that a program runs. -/
def Program.tests : Program → List (List Statement)
  | several tests => tests
  | single test => [test]

/-- The test stores or loads an integer of this width, where capabilities have the given one. -/
def Uses (capabilityWidth width : Nat) (test : List Statement) : Prop :=
  ∃ a, (a ∈ stores test ∨ a ∈ (loads test).map Prod.fst) ∧ a.type ≠ .charPtr ∧
    a.type.bytes capabilityWidth = width

/-- A field of a layout is accessed as an integer if it is one. -/
theorem exists_access_iff (h : l.Accessible v) (pointer : Int) :
    (∃ a ∈ l.fields.map (Field.access · pointer), a.type ≠ .charPtr ∧
      a.type.bytes v.capabilityWidth = width) ↔ l.HasInt width := by
  simp only [List.mem_map, exists_exists_and_eq_and, Field.access_type]
  refine exists_congr fun f => and_congr_right fun hf => ?_
  have haccess := h f hf
  rw [haccess.bytes_eq, haccess.kind_eq]
  simp

theorem Scenario.uses_body_iff (hw : s.written.Accessible v) (hr : s.read.Accessible v) :
    Uses v.capabilityWidth width s.body ↔ s.written.HasInt width ∨ s.read.HasInt width := by
  rw [← exists_access_iff hw 0, ← exists_access_iff hr s.displacement, Uses, stores_body,
    map_fst_loads_body]
  simp only [or_and_right, exists_or]

end TestProgram

namespace TestSuite

/-- All tests are those of the scenarios: the round trips and then the programs of one test. -/
theorem exists_all_tests (hv : v.Valid) (hls : ∀ l ∈ ls, l.Solid v)
    (hroom : ∀ l ∈ ls, l.Roomy v) :
    ∃ tests, all ls v = .ok tests ∧ (tests.flatMap fun test => test.program.tests) =
      (ls.flatMap roundTripScenarios ++ scenarios v ls).map Scenario.body := by
  obtain ⟨far, confused, hfar, hconfused, hprograms⟩ := exists_single_programs hv hls hroom
  have htrips := roundTrips_eq fun l hl => (hroom l hl).writable ((hls l hl).accessible hv)
  refine ⟨_, bind_eq_ok_iff.mpr ⟨_, htrips, bind_eq_ok_iff.mpr ⟨_, hfar,
    bind_eq_ok_iff.mpr ⟨_, hconfused, rfl⟩⟩⟩, ?_⟩
  rw [List.append_assoc, List.flatMap_append, List.map_append]
  refine congrArg₂ _ ?_ ?_
  · rw [List.flatMap_map]
    exact flatMap_groups ls
  · rw [← List.flatMap_map, hprograms, List.flatMap_map]
    exact List.flatMap_pure_eq_map _ _

/-- A test writes and reads the integers of one of the layouts, or some of them. -/
theorem exists_origin (hv : v.Valid) (hls : ∀ l ∈ ls, l.Solid v)
    (hs : s ∈ ls.flatMap roundTripScenarios ++ scenarios v ls) :
    ∃ l ∈ ls, ∀ f, f ∈ s.written.fields ∨ f ∈ s.read.fields → f.kind = .int → f ∈ l.fields := by
  rcases List.mem_append.mp hs with hs | hs
  · obtain ⟨l, hl, hs⟩ := List.mem_flatMap.mp hs
    obtain ⟨rfl, _, hread⟩ := written_eq_of_mem_roundTripScenarios hs
    refine ⟨_, hl, fun f hf _ => hf.elim id fun hf => ?_⟩
    rcases hread with hread | hread
    · exact hread ▸ hf
    · rw [hread] at hf
      exact (List.mem_filter.mp hf).1
  rcases List.mem_append.mp hs with hs | hs
  · obtain ⟨l, hl, hs⟩ := List.mem_flatMap.mp hs
    obtain ⟨rfl, hread, _⟩ := of_mem_displacedScenarios hs
    exact ⟨_, hl, fun f hf _ => hf.elim id fun hf => hread ▸ hf⟩
  · obtain ⟨⟨l, k⟩, hpair, hs⟩ := List.mem_flatMap.mp hs
    obtain ⟨hl, g, hconfuses⟩ := of_mem_confusedPairs hv hpair
    -- what is new in a confused layout is a capability
    have hkept : ∀ f ∈ k.fields, f.kind = .int → f ∈ l.fields := by
      intro f hf hkind
      rcases (hconfuses.mem_iff hv (hls l hl)).mp hf with rfl | ⟨hf, _⟩
      · cases hkind
      · exact hf
    obtain ⟨hroles, _⟩ := of_mem_confusedScenarios hs
    refine ⟨l, hl, fun f hf hkind => ?_⟩
    rcases hroles with heq | heq
    · cases heq
      exact hf.elim id fun hf => hkept f hf hkind
    · cases heq
      exact hf.elim (fun hf => hkept f hf hkind) id

theorem accessible_of_mem (hv : v.Valid) (hls : ∀ l ∈ ls, l.Solid v)
    (hs : s ∈ ls.flatMap roundTripScenarios ++ scenarios v ls) :
    s.written.Accessible v ∧ s.read.Accessible v := by
  rcases List.mem_append.mp hs with hs | hs
  · obtain ⟨l, hl, hs⟩ := List.mem_flatMap.mp hs
    obtain ⟨rfl, _, hread⟩ := written_eq_of_mem_roundTripScenarios hs
    have haccessible := (hls _ hl).accessible hv
    exact ⟨haccessible, accessible_of_mem_roundTripScenarios haccessible hs⟩
  · exact accessible_of_mem_scenarios hv hls hs

/-- The tests use the integers that the layouts have. -/
theorem exists_uses_iff (hv : v.Valid) (hls : ∀ l ∈ ls, l.Solid v)
    (hroom : ∀ l ∈ ls, l.Roomy v) :
    ∃ tests, all ls v = .ok tests ∧ ∀ width,
      (∃ test ∈ tests, ∃ statements ∈ test.program.tests,
        Uses v.capabilityWidth width statements) ↔ ∃ l ∈ ls, l.HasInt width := by
  obtain ⟨tests, htests, hbodies⟩ := exists_all_tests hv hls hroom
  have hmem : ∀ statements, (∃ test ∈ tests, statements ∈ test.program.tests) ↔
      ∃ s ∈ ls.flatMap roundTripScenarios ++ scenarios v ls, s.body = statements := by
    intro statements
    rw [← List.mem_flatMap, hbodies, List.mem_map]
  refine ⟨tests, htests, fun width => ⟨?_, ?_⟩⟩
  · rintro ⟨test, htest, statements, hstatements, huses⟩
    obtain ⟨s, hs, rfl⟩ := (hmem statements).mp ⟨test, htest, hstatements⟩
    obtain ⟨hwritten, hread⟩ := accessible_of_mem hv hls hs
    obtain ⟨l, hl, horigin⟩ := exists_origin hv hls hs
    rcases (Scenario.uses_body_iff hwritten hread).mp huses with ⟨f, hf, hint⟩ | ⟨f, hf, hint⟩
    · exact ⟨l, hl, f, horigin f (.inl hf) hint.1, hint⟩
    · exact ⟨l, hl, f, horigin f (.inr hf) hint.1, hint⟩
  · rintro ⟨l, hl, hint⟩
    -- the first program of a layout writes all of it
    let s : Scenario := ⟨l, l, -displacement, ⟨true, true⟩⟩
    have hs : s ∈ ls.flatMap roundTripScenarios ++ scenarios v ls :=
      List.mem_append_right _ (List.mem_append_left _ (List.mem_flatMap.mpr
        ⟨l, hl, List.mem_cons_self⟩))
    obtain ⟨hwritten, hread⟩ := accessible_of_mem hv hls hs
    obtain ⟨test, htest, hbody⟩ := (hmem s.body).mpr ⟨s, hs, rfl⟩
    exact ⟨test, htest, s.body, hbody, (Scenario.uses_body_iff hwritten hread).mpr (.inl hint)⟩

/-- The layouts of a valid variant, and with them its tests, have integers of every width of the
variant if it has a gap. Without a gap they have integers of the search step only. -/
theorem width_tested_iff (hv : v.defect? = none) :
    ∃ ls tests, enumerate v = .ok ls ∧ all ls v = .ok tests ∧ ∀ width ∈ v.intSizes,
      ((∃ l ∈ ls, l.HasInt width) ↔ v.paddingAmounts ≠ [] ∨ width = v.recursionStep) ∧
      ((∃ test ∈ tests, ∃ statements ∈ test.program.tests,
        Uses v.capabilityWidth width statements) ↔
          v.paddingAmounts ≠ [] ∨ width = v.recursionStep) := by
  have hv := Variant.defect?_eq_none_iff.mp hv
  obtain ⟨ls, hls, _⟩ := exists_enumerate hv
  have hpossible : ∀ l ∈ ls, l.Possible v := fun l hl => possible_of_mem_enumerate hv hls hl
  obtain ⟨tests, htests, huses⟩ := exists_uses_iff hv (fun l hl => (hpossible l hl).toSolid)
    fun l hl => (hpossible l hl).roomy hv
  refine ⟨ls, tests, hls, htests, fun width hw => ?_⟩
  have hlayouts := exists_hasInt_iff hv hls hw
  exact ⟨hlayouts, (huses width).trans hlayouts⟩

/-- Integers of a single byte, which the search does not append. -/
theorem width_tested_filc :
    Variant.filc.defect? = none ∧ 1 ∈ Variant.filc.intSizes ∧
      ∃ ls tests, enumerate .filc = .ok ls ∧ all ls .filc = .ok tests ∧
        (∃ l ∈ ls, l.HasInt 1) ∧
        ∃ test ∈ tests, ∃ statements ∈ test.program.tests, Uses 8 1 statements := by
  have hvalid : Variant.filc.defect? = none := by decide
  have hwidth : 1 ∈ Variant.filc.intSizes := by decide
  obtain ⟨ls, tests, hls, htests, htested⟩ := width_tested_iff hvalid
  obtain ⟨hlayouts, huses⟩ := htested 1 hwidth
  exact ⟨hvalid, hwidth, ls, tests, hls, htests, hlayouts.mpr (.inl (by decide)),
    huses.mpr (.inl (by decide))⟩

end TestSuite

/-- A valid variant without a gap, so that its grid is empty. -/
def Variant.gapless : Variant where
  name := "gapless"
  byteLimit := 1
  intSizes := [1, 2]
  paddingAmounts := []
  capabilityWidth := 2
  recursionStep := 2

/-- Single bytes are among the widths of the variant, but none of its layouts has one. -/
theorem enumerate_gapless :
    Variant.gapless.defect? = none ∧ 1 ∈ Variant.gapless.intSizes ∧
      enumerate .gapless = .ok [⟨[⟨0, .int, 2⟩]⟩, ⟨[⟨0, .ptr, 2⟩]⟩] ∧
      ¬ ∃ ls, enumerate .gapless = .ok ls ∧ ∃ l ∈ ls, l.HasInt 1 := by
  have henumerate : enumerate .gapless = .ok [⟨[⟨0, .int, 2⟩]⟩, ⟨[⟨0, .ptr, 2⟩]⟩] := by cbv
  refine ⟨by decide, by decide, henumerate, ?_⟩
  rintro ⟨ls, hls, l, hl, f, hf, hint⟩
  obtain rfl := Except.ok.inj (henumerate.symm.trans hls)
  revert f
  revert l
  decide

end CapFixture
