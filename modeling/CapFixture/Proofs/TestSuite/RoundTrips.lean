import Mathlib.Data.List.Nodup
import CapFixture.Proofs.TestProgram.ReadingBack
import CapFixture.Proofs.TestProgram.Run
import CapFixture.Proofs.TestSuite

/-!
# Round trips succeed

A round trip loads some of the fields that it has stored, each as what it was stored as. Stores do
not disturb one another, so every variable holds what its assertion asks for.

## Main definitions

- `TestProgram.Sound` — a test in which nothing can go wrong
- `TestSuite.roundTripsOf` — the round trips of a layout, one by one
-/

namespace CapFixture

open TestProgram

namespace TestProgram

/-- A test in which nothing can go wrong, where capabilities have the given width. -/
structure Sound (width : Nat) (test : List Statement) : Prop where
  stores_inside : ∀ a ∈ stores test, a.Inside width (allocated test)
  loads_inside : ∀ load ∈ loads test, load.1.Inside width (allocated test)
  /-- No two stores have a byte in common. -/
  stores_apart : (stores test).Pairwise fun a b => ¬ a.Meets width b
  /-- Every load has the place and the type of exactly one store. -/
  stored_once : ∀ load ∈ loads test, (stores test).count load.1 = 1
  /-- Every load has a variable of its own. -/
  declared_once : ((loads test).map Prod.snd).Nodup
  /-- There is one assertion for every load. It compares the variable with the value that has been
  stored at the place of the load. -/
  checked : List.Forall₂
    (fun load check => check.1 = load.2 ∧ (load.1, check.2) ∈ writes test)
    (loads test) (checks test)
  /-- No run fails, and every variable holds what has been stored. -/
  passes : ∀ (m : Machine width) start, ∃ final, m.run start test = .ok final ∧
    ∀ load ∈ loads test, ∀ content, (load.1, content) ∈ writes test →
      final.loaded load.2 = m.written load.1.type content

section
variable {v : Variant} {s : Scenario}

theorem Scenario.forall₂_checks_body (hw : s.written.Accessible v) (hr : s.read.Accessible v)
    (hread : ∀ load ∈ loads s.body, load.1 ∈ stores s.body) : List.Forall₂
      (fun load check => check.1 = load.2 ∧ (load.1, check.2) ∈ writes s.body)
      (loads s.body) (checks s.body) := by
  have hloads : loads s.body =
      s.read.fields.zipIdx.map fun f => (f.1.access s.displacement, f.2) := by
    rw [loads_body, List.zipIdx_map]
    rfl
  rw [hloads, checks_body, List.forall₂_map_left_iff, List.forall₂_map_right_iff,
    List.forall₂_same]
  rintro ⟨f, index⟩ hf
  have hindex := List.mem_zipIdx_iff_getElem?.mp hf
  have hload : (f.access s.displacement, index) ∈ loads s.body :=
    mem_loads_body.mpr ⟨f, hindex, rfl⟩
  have hcheck : (index, f.content) ∈ checks s.body := mem_checks_body.mpr ⟨f, hindex, rfl⟩
  exact ⟨rfl, mem_writes_of_mem_stores hw hr hload hcheck (hread _ hload)⟩

/-- A test that reads nothing but what it has written is sound. -/
theorem Scenario.sound_body (hv : v.Valid) (hw : s.written.Solid v) (hr : s.read.Accessible v)
    (hread : ∀ load ∈ loads s.body, load.1 ∈ stores s.body) :
    Sound v.capabilityWidth s.body := by
  have hpos := hv.capability_pos
  have hinside := inside_of_mem_stores hv hw
  have hapart := pairwise_stores hv hw
  refine ⟨hinside, fun load hload => hinside _ (hread load hload), hapart, ?_, ?_,
    forall₂_checks_body (hw.accessible hv) hr hread, ?_⟩
  · intro load hload
    refine List.count_eq_one_of_mem (hapart.imp ?_) (hread load hload)
    rintro a b hab rfl
    exact hab ⟨a.start, a.covers_start hpos, a.covers_start hpos⟩
  · rw [loads_body, List.zipIdx_map_snd]
    exact List.nodup_range'
  · intro m start
    have houtcome := m.outcome_run start hinside
    generalize m.run start s.body = result at houtcome ⊢
    cases houtcome with
    | outOfBounds hload hout => exact absurd (hinside _ (hread _ hload)) hout
    | rejected _ hload hcheck hrejects =>
      exact absurd
        (Machine.accepts_of_mem_stores hv hw m start hr hload hcheck (hread _ hload)) hrejects
    | passed _ _ hloaded =>
      refine ⟨_, rfl, fun load hload content hwrite => ?_⟩
      rw [hloaded load hload, m.bytesIn_filled start hpos hapart hwrite]

end

end TestProgram

namespace TestSuite

variable {v : Variant} {l : Layout} {ls : List Layout} {s : Scenario}

theorem written_eq_of_mem_roundTripScenarios (h : s ∈ roundTripScenarios l) :
    s.written = l ∧ s.displacement = 0 ∧ (s.read = l ∨ s.read = l.without .ptr) := by
  obtain ⟨opacity, _, h⟩ := List.mem_flatMap.mp h
  obtain ⟨read, hread, rfl⟩ := List.mem_map.mp h
  exact ⟨rfl, rfl, mem_readBack hread⟩

/-- What a round trip of a layout loads is what it has stored, or the integers among that. -/
theorem mem_stores_of_mem_roundTripScenarios (h : s ∈ roundTripScenarios l)
    {load : Access × Nat} (hload : load ∈ loads s.body) : load.1 ∈ stores s.body := by
  obtain ⟨hwritten, hdisplacement, hread⟩ := written_eq_of_mem_roundTripScenarios h
  obtain ⟨f, hf, haccess⟩ := Scenario.mem_loads_body.mp hload
  refine Scenario.mem_stores_body.mpr ⟨f, ?_, hdisplacement ▸ haccess⟩
  have hf := List.mem_of_getElem? hf
  rw [hwritten]
  rcases hread with hread | hread
  · exact hread ▸ hf
  · rw [hread] at hf
    exact (List.mem_filter.mp hf).1

theorem accessible_of_mem_roundTripScenarios (hl : l.Accessible v)
    (h : s ∈ roundTripScenarios l) : s.read.Accessible v := by
  obtain ⟨_, _, hread⟩ := written_eq_of_mem_roundTripScenarios h
  rcases hread with hread | hread
  · exact hread ▸ hl
  · exact hread ▸ hl.without .ptr

theorem statements_of_mem_roundTripScenarios (hl : l.Writable v) (h : s ∈ roundTripScenarios l) :
    s.statements = .ok s.body := by
  obtain ⟨hwritten, _, _⟩ := written_eq_of_mem_roundTripScenarios h
  exact Scenario.statements_eq (hwritten ▸ hl)
    (accessible_of_mem_roundTripScenarios hl.accessible h)

/-- A round trip has statements, and they tell which round trip it is. -/
theorem scenario?_of_mem_roundTripScenarios (hl : l.Writable v) (h : s ∈ roundTripScenarios l) :
    s.statements = .ok s.body ∧ scenario? v.capabilityWidth s.body = some s := by
  have hread := accessible_of_mem_roundTripScenarios hl.accessible h
  have hstatements := statements_of_mem_roundTripScenarios hl h
  obtain ⟨rfl, _, _⟩ := written_eq_of_mem_roundTripScenarios h
  exact ⟨hstatements, Scenario.scenario?_body hl.accessible hread⟩

theorem mem_of_mem_groups {group : List Layout} {index : Nat} (hl : l ∈ group)
    (hgroup : (group, index) ∈ (groups ls).zipIdx) : l ∈ ls := by
  have hflat : l ∈ (groups ls).flatten :=
    List.mem_flatten.mpr ⟨group, List.fst_mem_of_mem_zipIdx hgroup, hl⟩
  rwa [flatten_groups] at hflat

/-- The programs of round trips, with all their tests. -/
theorem roundTrips_eq (h : ∀ l ∈ ls, l.Writable v) :
    roundTrips ls = .ok ((groups ls).zipIdx.map fun (group, index) =>
      ⟨"combostorm_success" ++ toString index,
        .several ((group.flatMap roundTripScenarios).map Scenario.body), .success⟩) := by
  refine mapM_eq_ok_map ?_
  rintro ⟨group, index⟩ hgroup
  have hstatements : ∀ s ∈ group.flatMap roundTripScenarios, s.statements = .ok s.body := by
    intro s hs
    obtain ⟨l, hl, hs⟩ := List.mem_flatMap.mp hs
    exact statements_of_mem_roundTripScenarios (h l (mem_of_mem_groups hl hgroup)) hs
  show (group.flatMap roundTripScenarios).mapM Scenario.statements >>= _ = _
  rw [mapM_eq_ok_map hstatements]
  rfl

theorem failsWith_roundTrips (h : ∀ l ∈ ls, l.Accessible v) :
    FailsWith (.overflow .add) (roundTrips ls) := by
  refine FailsWith.mapM ?_
  rintro ⟨group, index⟩ hgroup
  refine (FailsWith.mapM fun s hs => ?_).bind fun _ _ => .ok _ _
  obtain ⟨l, hl, hs⟩ := List.mem_flatMap.mp hs
  have haccessible := h l (mem_of_mem_groups hl hgroup)
  exact Scenario.failsWith_statements
    ((written_eq_of_mem_roundTripScenarios hs).1 ▸ haccessible)
    (accessible_of_mem_roundTripScenarios haccessible hs)

/-- A word holds the end of every layout whose round trips have been written. -/
theorem total_lt_of_roundTrips_eq_ok {tests : List TestCase} (h : roundTrips ls = .ok tests)
    (hl : l ∈ ls) : l.total < wordSize := by
  rw [← flatten_groups ls, List.mem_flatten] at hl
  obtain ⟨group, hgroup, hl⟩ := hl
  obtain ⟨index, hindex⟩ := List.mem_iff_getElem?.mp hgroup
  obtain ⟨test, _, htest⟩ :=
    exists_mem_of_mapM_eq_ok h (List.mem_zipIdx_iff_getElem?.mpr hindex : (group, index) ∈ _)
  obtain ⟨bodies, hbodies, _⟩ := bind_eq_ok_iff.mp htest
  have hscenario : (⟨l, l, 0, ⟨true, true⟩⟩ : Scenario) ∈ group.flatMap roundTripScenarios := by
    refine List.mem_flatMap.mpr ⟨l, hl, List.mem_flatMap.mpr ⟨⟨true, true⟩, by decide, ?_⟩⟩
    refine List.mem_map.mpr ⟨l, ?_, rfl⟩
    unfold readBack
    split <;> simp
  obtain ⟨body, _, hbody⟩ := exists_mem_of_mapM_eq_ok hbodies hscenario
  exact Scenario.total_lt_of_statements_eq_ok hbody

theorem roundTrips_eq_error (h : ∀ l ∈ ls, l.Accessible v) (hl : l ∈ ls)
    (hlarge : wordSize ≤ l.total) : roundTrips ls = .error (.overflow .add) := by
  refine (failsWith_roundTrips h).resolve_left ?_
  rintro ⟨tests, htests⟩
  exact Nat.not_lt_of_le hlarge (total_lt_of_roundTrips_eq_ok htests hl)

/-- No word holds the end of some layout, or all round trips can be written. -/
theorem roundTrips_cases (h : ∀ l ∈ ls, l.Accessible v) :
    (roundTrips ls = .error (.overflow .add) ∧ ∃ l ∈ ls, wordSize ≤ l.total) ∨
      ∀ l ∈ ls, l.Writable v := by
  by_cases hfits : ∀ l ∈ ls, l.total < wordSize
  · exact .inr fun l hl => ⟨h l hl, hfits l hl⟩
  · push Not at hfits
    obtain ⟨l, hl, hlarge⟩ := hfits
    exact .inl ⟨roundTrips_eq_error h hl hlarge, l, hl, hlarge⟩

/-- The round trips of a layout. It is read back through each kind of pointer, and where it has
both, its integers are then read back alone. -/
def roundTripsOf (l : Layout) : List Scenario :=
  [⟨true, true⟩, ⟨true, false⟩, ⟨false, true⟩, ⟨false, false⟩].flatMap fun opacity =>
    ⟨l, l, 0, opacity⟩ ::
      if l.has .ptr && l.has .int then [⟨l, l.without .ptr, 0, opacity⟩] else []

theorem roundTripScenarios_eq (l : Layout) : roundTripScenarios l = roundTripsOf l := by
  rw [roundTripScenarios, roundTripsOf, readBack]
  refine List.flatMap_congr fun opacity _ => ?_
  split <;> rfl

/-- The tests of all groups are those of all layouts. -/
theorem flatMap_groups (ls : List Layout) :
    ((groups ls).zipIdx.flatMap fun p => (p.1.flatMap roundTripScenarios).map Scenario.body) =
      (ls.flatMap roundTripScenarios).map Scenario.body := by
  calc _ = (groups ls).flatMap fun group => (group.flatMap roundTripScenarios).map Scenario.body :=
        flatMap_zipIdx_fst (groups ls) fun group =>
          (group.flatMap roundTripScenarios).map Scenario.body
    _ = ((groups ls).flatten.flatMap roundTripScenarios).map Scenario.body := by
        rw [List.flatten_eq_flatMap, List.flatMap_assoc, List.map_flatMap]
        rfl
    _ = _ := by rw [flatten_groups]

/-- The tests that are read off the texts of the programs. -/
theorem flatMap_testsIn_groups (ls : List Layout) :
    (((groups ls).zipIdx.map fun (group, index) =>
      (⟨"combostorm_success" ++ toString index,
        .several ((group.flatMap roundTripScenarios).map Scenario.body), .success⟩ :
          TestCase)).flatMap fun test => testsIn test.program.render) =
      (ls.flatMap roundTripScenarios).map Scenario.body := by
  rw [List.flatMap_map]
  simp only [testsIn_several]
  exact flatMap_groups ls

/-- Where no word holds the end of some layout, there are no round trips. Otherwise it is read off
the text of the programs that their tests are the round trips of the layouts, in their order, and
that all of them are sound. -/
theorem roundTrips_sound (hv : v.defect? = none) (hls : ∀ l ∈ ls, l.Canonical v) :
    (roundTrips ls = .error (.overflow .add) ∧ ∃ l ∈ ls, wordSize ≤ l.total) ∨
    ∃ tests, roundTrips ls = .ok tests ∧ (∀ l ∈ ls, l.total < wordSize) ∧
      List.Forall₂ (fun s body => s.statements = .ok body ∧
          scenario? v.capabilityWidth body = some s ∧ Sound v.capabilityWidth body)
        (ls.flatMap roundTripsOf) (tests.flatMap fun test => testsIn test.program.render) := by
  have hv := Variant.defect?_eq_none_iff.mp hv
  have haccessible : ∀ l ∈ ls, l.Accessible v := fun l hl =>
    (hls l hl).toSolid.accessible hv
  rcases roundTrips_cases haccessible with herror | hwritable
  · exact .inl herror
  · refine .inr ⟨_, roundTrips_eq hwritable, fun l hl => (hwritable l hl).fits, ?_⟩
    rw [flatMap_testsIn_groups, List.flatMap_congr fun l _ => (roundTripScenarios_eq l).symm,
      List.forall₂_map_right_iff, List.forall₂_same]
    intro s hs
    obtain ⟨l, hl, hs⟩ := List.mem_flatMap.mp hs
    obtain ⟨hstatements, hscenario⟩ := scenario?_of_mem_roundTripScenarios (hwritable l hl) hs
    obtain ⟨rfl, _, _⟩ := written_eq_of_mem_roundTripScenarios hs
    have hread := accessible_of_mem_roundTripScenarios (haccessible _ hl) hs
    refine ⟨hstatements, hscenario, Scenario.sound_body hv (hls _ hl).toSolid hread fun load => ?_⟩
    exact mem_stores_of_mem_roundTripScenarios hs

/-- A pointer next to an integer, for which there are eight tests. -/
theorem roundTrips_ptr_int_sound :
    Variant.filc.defect? = none ∧ Layout.Canonical .filc ⟨[⟨0, .ptr, 8⟩, ⟨8, .int, 4⟩]⟩ ∧
      ∃ tests, roundTrips [⟨[⟨0, .ptr, 8⟩, ⟨8, .int, 4⟩]⟩] = .ok tests ∧
        (tests.flatMap fun test => testsIn test.program.render).length = 8 ∧
        List.Forall₂ (fun s body => s.statements = .ok body ∧ scenario? 8 body = some s ∧
            Sound 8 body)
          (roundTripsOf ⟨[⟨0, .ptr, 8⟩, ⟨8, .int, 4⟩]⟩)
          (tests.flatMap fun test => testsIn test.program.render) := by
  have hvalid : Variant.filc.defect? = none := by decide
  have hcanonical : Layout.Canonical .filc ⟨[⟨0, .ptr, 8⟩, ⟨8, .int, 4⟩]⟩ :=
    ⟨⟨[.append .ptr 8, .append .int 4], by rfl⟩, by decide⟩
  rcases roundTrips_sound hvalid (List.forall_mem_singleton.mpr hcanonical) with
    ⟨_, l, hl, hlarge⟩ | ⟨tests, htests, _, hbodies⟩
  · obtain rfl := List.mem_singleton.mp hl
    exact absurd hlarge (by decide)
  · rw [List.flatMap_singleton] at hbodies
    exact ⟨hvalid, hcanonical, tests, htests, hbodies.length_eq.symm, hbodies⟩

end TestSuite

end CapFixture
