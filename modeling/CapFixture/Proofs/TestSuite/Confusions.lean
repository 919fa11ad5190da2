import Mathlib.Data.List.Pairwise
import CapFixture.Proofs.Enumeration
import CapFixture.Proofs.Mutation.Swallowed
import CapFixture.Proofs.TestProgram.Run
import CapFixture.Proofs.TestSuite

/-!
# Type confusions are told apart

A test that reads a confused layout fails at the new capability. A test that writes a confused
layout fails at an integer of which the new capability has taken the first byte. Whether that
failure is an assertion depends on how far the confused layout reaches.

Tests of a layout with integers can be written exactly if words hold all the ends that are needed.

## Main definitions

- `TestProgram.ReadsConfused`, `TestProgram.WritesConfused` — what the two tests of a pair do
- `Layout.confused` — the confused layouts of a layout
-/

namespace CapFixture

open TestProgram

namespace TestProgram

/-- A test that reads a capability where it has written integers. -/
structure ReadsConfused (width : Nat) (capability : Access) (test : List Statement) : Prop where
  is_ptr : capability.type = .charPtr
  /-- There is exactly one load of what has not been stored. -/
  unwritten_eq : unwritten test = [capability]
  meets_int : ∃ a ∈ stores test, a.type ≠ .charPtr ∧ a.Meets width capability
  /-- Nothing else can fail. -/
  fails_at : ∀ (m : Machine width) start failure, m.run start test = .error failure →
    ∃ load ∈ loads test, load.1 = capability ∧ failure.Concerns load
  fails : ∀ (m : Machine width) start, m.Faithful → ∃ failure, m.run start test = .error failure

/-- A test that reads integers where it has written a capability. -/
structure WritesConfused (width : Nat) (capability : Access) (test : List Statement) : Prop where
  is_ptr : capability.type = .charPtr
  stored : capability ∈ stores test
  /-- There are loads of what has not been stored. -/
  unwritten_ne_nil : unwritten test ≠ []
  unwritten_int : ∀ a ∈ unwritten test, a.type ≠ .charPtr ∧ a.Meets width capability
  /-- Every capability that is loaded has been stored, and no other store meets it. -/
  capabilities_kept : ∀ load ∈ loads test, load.1.type = .charPtr →
    load.1 ∈ stores test ∧ ∀ a ∈ stores test, a ≠ load.1 → ¬ a.Meets width load.1
  fails_at : ∀ (m : Machine width) start, ∃ failure, m.run start test = .error failure ∧
    ∃ load ∈ loads test, load.1 ∈ unwritten test ∧ failure.Concerns load

end TestProgram

namespace Layout.Confuses

variable {v : Variant} {l k : Layout} {f : Field} (hv : v.Valid) (hl : Solid v l)
  (h : Confuses v l f k)

include hv hl h

theorem access_slot_type : ((slot v f.offset).access 0).type = .charPtr :=
  ((h.solid hv hl).accessible hv _ h.slot_mem).type_eq_charPtr_iff.mpr rfl

theorem access_type_ne : (f.access 0).type ≠ .charPtr :=
  (hl.accessible hv f h.mem).type_ne_charPtr h.1

/-- The integer that has become a slot starts in it. -/
theorem covers_start :
    ((slot v f.offset).access 0).Covers v.capabilityWidth (f.access 0).start := by
  have hslot := (h.solid hv hl).accessible hv _ h.slot_mem
  have hstart := slot_offset_le v f.offset
  have hstop := lt_slot_stop hv.capability_pos f.offset
  rw [Access.Covers, hslot.access_stop, Field.access_start, Field.access_start]
  omega

/-- An integer that is lost meets the slot. -/
theorem meets_slot {g : Field} (hg : g ∈ l.fields) (hlost : g ∉ k.fields) :
    (g.access 0).Meets v.capabilityWidth ((slot v f.offset).access 0) := by
  have hslot := (h.solid hv hl).accessible hv _ h.slot_mem
  have hoverlaps := Field.overlaps_iff.mpr (h.overlaps_of_not_mem hv hl hg hlost)
  exact (hl.accessible hv g hg).meets_of_overlaps hv.capability_pos hslot hoverlaps

/-! ### Reading the confused layout -/

theorem unwritten_reading (opacity : Opacity) :
    unwritten (Scenario.body ⟨l, k, 0, opacity⟩) = [(slot v f.offset).access 0] := by
  rw [Scenario.unwritten_body rfl (hl.accessible hv) ((h.solid hv hl).accessible hv),
    h.filter_not_mem hv hl]
  rfl

theorem readsConfused (opacity : Opacity) :
    ReadsConfused v.capabilityWidth ((slot v f.offset).access 0)
      (Scenario.body ⟨l, k, 0, opacity⟩) := by
  let s : Scenario := ⟨l, k, 0, opacity⟩
  have hk := (h.solid hv hl).accessible hv
  have hunwritten : unwritten s.body = [(slot v f.offset).access 0] :=
    h.unwritten_reading hv hl opacity
  have hwritten : (f.access 0, .value) ∈ writes s.body :=
    Scenario.mem_writes_body.mpr ⟨f, h.mem, by rw [Field.content_of_int h.1]⟩
  have hstored : f.access 0 ∈ stores s.body := mem_stores.mpr ⟨_, hwritten⟩
  refine ⟨h.access_slot_type hv hl, hunwritten, ⟨f.access 0, hstored,
    h.access_type_ne hv hl, h.meets_slot hv hl h.mem (h.not_mem hv hl)⟩, ?_, ?_⟩
  · intro m start failure hrun
    obtain ⟨load, hload, hmem, hconcerns⟩ :=
      Machine.exists_unwritten_of_run_eq_error (s := s) hv hl hk hrun
    rw [hunwritten] at hmem
    exact ⟨load, hload, List.mem_singleton.mp hmem, hconcerns⟩
  · intro m start hm
    obtain ⟨index, hindex⟩ := List.mem_iff_getElem?.mp h.slot_mem
    have hload : ((slot v f.offset).access 0, index) ∈ loads s.body :=
      Scenario.mem_loads_body.mpr ⟨_, hindex, rfl⟩
    have hcheck : (index, .hello) ∈ checks s.body :=
      Scenario.mem_checks_body.mpr ⟨_, hindex, Field.content_of_ptr rfl⟩
    exact Machine.exists_run_eq_error (s := s) hv hl m start hload hcheck <|
      Machine.not_accepts_ptr start hv.capability_pos hv.capability_le hm
        (Scenario.pairwise_stores hv hl) hwritten (h.covers_start hv hl)

/-! ### Writing the confused layout -/

theorem mem_unwritten_writing (opacity : Opacity) {a : Access} :
    a ∈ unwritten (Scenario.body ⟨k, l, 0, opacity⟩) ↔
      ∃ g ∈ l.fields, g ∉ k.fields ∧ g.access 0 = a := by
  rw [Scenario.unwritten_body rfl ((h.solid hv hl).accessible hv) (hl.accessible hv)]
  simp [and_assoc]

/-- Capabilities are stored where they were, and nothing is stored over them. -/
theorem capability_kept (opacity : Opacity) {load : Access × Nat}
    (hload : load ∈ loads (Scenario.body ⟨k, l, 0, opacity⟩)) (hptr : load.1.type = .charPtr) :
    load.1 ∈ stores (Scenario.body ⟨k, l, 0, opacity⟩) ∧
      ∀ a ∈ stores (Scenario.body ⟨k, l, 0, opacity⟩), a ≠ load.1 →
        ¬ a.Meets v.capabilityWidth load.1 := by
  let s : Scenario := ⟨k, l, 0, opacity⟩
  obtain ⟨g, hindex, haccess⟩ := Scenario.mem_loads_body.mp hload
  have hg : g ∈ l.fields := List.mem_of_getElem? hindex
  rw [← haccess] at hptr
  have hkind := (hl.accessible hv g hg).type_eq_charPtr_iff.mp hptr
  have hgk := h.mem_of_kind_eq_ptr hv hl hg hkind
  have hstored : load.1 ∈ stores s.body := Scenario.mem_stores_body.mpr ⟨g, hgk, haccess⟩
  refine ⟨hstored, ?_⟩
  intro a ha hne
  exact (Scenario.pairwise_stores (s := s) hv (h.solid hv hl)).forall ha hstored hne

theorem writesConfused (opacity : Opacity) :
    WritesConfused v.capabilityWidth ((slot v f.offset).access 0)
      (Scenario.body ⟨k, l, 0, opacity⟩) := by
  let s : Scenario := ⟨k, l, 0, opacity⟩
  have hk := h.solid hv hl
  have hptr := h.access_slot_type hv hl
  have hwritten : ((slot v f.offset).access 0, .hello) ∈ writes s.body :=
    Scenario.mem_writes_body.mpr ⟨_, h.slot_mem, by rw [Field.content_of_ptr rfl]⟩
  have hlost : f.access 0 ∈ unwritten s.body :=
    (h.mem_unwritten_writing hv hl opacity).mpr ⟨f, h.mem, h.not_mem hv hl, rfl⟩
  refine ⟨hptr, mem_stores.mpr ⟨_, hwritten⟩, List.ne_nil_of_mem hlost, ?_, ?_, ?_⟩
  · intro a ha
    obtain ⟨g, hg, hgk, rfl⟩ := (h.mem_unwritten_writing hv hl opacity).mp ha
    have hkind := h.kind_of_not_mem hv hl hg hgk
    exact ⟨(hl.accessible hv g hg).type_ne_charPtr hkind, h.meets_slot hv hl hg hgk⟩
  · intro load hload hloadPtr
    exact h.capability_kept hv hl opacity hload hloadPtr
  · intro m start
    obtain ⟨index, hindex⟩ := List.mem_iff_getElem?.mp h.mem
    have hload : (f.access 0, index) ∈ loads s.body :=
      Scenario.mem_loads_body.mpr ⟨f, hindex, rfl⟩
    have hcheck : (index, .value) ∈ checks s.body :=
      Scenario.mem_checks_body.mpr ⟨f, hindex, Field.content_of_int h.1⟩
    have hrejects := m.not_accepts_int start hv.capability_pos hv.capability_le
      (Scenario.pairwise_stores hv hk) hwritten hptr (h.covers_start hv hl)
    obtain ⟨failure, hrun⟩ :=
      Machine.exists_run_eq_error (s := s) hv hk m start hload hcheck hrejects
    exact ⟨failure, hrun,
      Machine.exists_unwritten_of_run_eq_error (s := s) hv hk (hl.accessible hv) hrun⟩

end Layout.Confuses

namespace Layout

variable {v : Variant} {l k : Layout} {f : Field}

theorem has_iff {kind : Kind} : l.has kind = true ↔ ∃ f ∈ l.fields, f.kind = kind := by
  simp [has]

theorem exists_confuses (v : Variant) (hf : f ∈ l.fields) (hint : f.kind = .int) :
    ∃ k, Confuses v l f k := by
  obtain ⟨front, back, hl⟩ := List.append_of_mem hf
  exact ⟨_, hint, front, back, hl, rfl⟩

/-- A test can allocate the confused layouts of a layout that there is room for. -/
theorem Confuses.writable (hv : v.Valid) (hl : Solid v l) (h : Confuses v l f k)
    (hroom : l.Roomy v) : k.Writable v := by
  refine ⟨(h.solid hv hl).accessible hv, total_lt_of_stop_lt fun g hg => ?_⟩
  rcases (h.mem_iff hv hl).mp hg with rfl | ⟨hg, _⟩
  · exact hroom.slots_fit f h.mem h.1
  · exact hroom.fits g hg

/-- The confused layouts of a layout, and none where it cannot be confused. -/
def confused (v : Variant) (l : Layout) : List Layout :=
  match l.confusions v with
  | .ok ks => ks
  | .error _ => []

theorem exists_confuses_of_mem_confused (hv : 0 < v.capabilityWidth) (hk : k ∈ l.confused v) :
    ∃ f, Confuses v l f k := by
  unfold confused at hk
  split at hk
  · next hks => exact (mem_iff_exists_confuses hv hks).mp hk
  · cases hk

theorem confusions_eq_confused (hv : 0 < v.capabilityWidth)
    (hroom : l.has .int = true → l.Roomy v) : l.confusions v = .ok (l.confused v) := by
  have hfits : ∀ front f back, l.fields = front ++ f :: back → Confusable v front f back := by
    intro front f back hl hint
    exact (hroom (has_iff.mpr ⟨f, by simp [hl], hint⟩)).confusable hl hint
  obtain ⟨ks, hks, _⟩ := l.exists_confusions hv hfits
  rw [confused, hks]

end Layout

/-! ### Lists in lists -/

section
variable {α β γ : Type}

theorem flatten_flatMap (as : List α) (f : α → List (List β)) :
    (as.flatMap f).flatten = as.flatMap fun a => (f a).flatten := by
  simp only [List.flatMap_def, List.flatten_flatten, List.map_map, Function.comp_def]

theorem flatten_flatten_map (as : List α) (bs : α → List β) (f : α → β → List γ) :
    (as.map fun a => (bs a).map (f a)).flatten.flatten =
      as.flatMap fun a => (bs a).flatMap (f a) := by
  rw [← List.flatMap_def, flatten_flatMap]
  rfl

end

namespace TestSuite

variable {v : Variant} {l k : Layout} {ls ks : List Layout}

/-! ### Pairs of tests -/

/-- What the names of the tests of a confused layout start with. -/
def confusionName (index confusedIndex : Nat) : String :=
  "combostorm_badtype" ++ toString index ++ "_" ++ toString confusedIndex

/-- The test of a pair that reads the confused layout. -/
def readingTest (l k : Layout) (name : String) (opacity : Opacity) : TestCase where
  name := name ++ "_read" ++ opacity.suffix
  program := .single (Scenario.body ⟨l, k, 0, opacity⟩)
  expectation := .failure Expectation.safetyError

/-- The test of a pair that writes the confused layout. -/
def writingTest (l k : Layout) (name : String) (opacity : Opacity) : TestCase where
  name := name ++ "_write" ++ opacity.suffix
  program := .single (Scenario.body ⟨k, l, 0, opacity⟩)
  expectation := .failure Expectation.userError

theorem confusionPair_eq (hl : l.Writable v) (hk : k.Writable v) (name : String)
    (opacity : Opacity) :
    confusionPair name l k opacity =
      .ok [readingTest l k name opacity, writingTest l k name opacity] := by
  rw [confusionPair, failing_eq (s := ⟨l, k, 0, opacity⟩) hl hk.accessible,
    failing_eq (s := ⟨k, l, 0, opacity⟩) hk hl.accessible]
  rfl

theorem failsWith_confusionPair (hl : l.Accessible v) (hk : k.Accessible v) (name : String)
    (opacity : Opacity) : FailsWith (.overflow .add) (confusionPair name l k opacity) := by
  refine (failsWith_failing (s := ⟨l, k, 0, opacity⟩) hl hk _ _).bind fun _ _ => ?_
  exact (failsWith_failing (s := ⟨k, l, 0, opacity⟩) hk hl _ _).bind fun _ _ => .ok _ _

theorem total_lt_of_confusionPair_eq_ok {name : String} {opacity : Opacity}
    {tests : List TestCase} (h : confusionPair name l k opacity = .ok tests) :
    l.total < wordSize ∧ k.total < wordSize := by
  obtain ⟨read, hread, h⟩ := bind_eq_ok_iff.mp h
  obtain ⟨write, hwrite, _⟩ := bind_eq_ok_iff.mp h
  exact ⟨total_lt_of_failing_eq_ok hread, total_lt_of_failing_eq_ok hwrite⟩

/-! ### All pairs -/

theorem failsWith_confusions (hv : v.Valid) (hls : ∀ l ∈ ls, l.Solid v) :
    FailsWith (.overflow .add) (confusions ls v) := by
  refine FailsWith.bind (FailsWith.mapM ?_) fun _ _ => .ok _ _
  rintro ⟨l, index⟩ hl
  have hsolid := hls l (List.fst_mem_of_mem_zipIdx hl)
  refine (Layout.failsWith_confusions hv.capability_pos l).bind fun ks hks => .mapM ?_
  rintro ⟨k, confusedIndex⟩ hk
  obtain ⟨f, hconfuses⟩ := (Layout.mem_iff_exists_confuses hv.capability_pos hks).mp
    (List.fst_mem_of_mem_zipIdx hk)
  exact .mapM fun opacity _ => failsWith_confusionPair (hsolid.accessible hv)
    ((hconfuses.solid hv hsolid).accessible hv) _ opacity

/-- The tests of a layout and its confused layouts allocate both. -/
theorem roomy_of_confusions_eq_ok (hv : v.Valid) {tests : List TestCase}
    (htests : confusions ls v = .ok tests) (hl : l ∈ ls) (hsolid : l.Solid v)
    (hint : l.has .int = true) : l.Roomy v := by
  obtain ⟨groups, hgroups, _⟩ := bind_eq_ok_iff.mp htests
  obtain ⟨index, hindex⟩ := List.mem_iff_getElem?.mp hl
  obtain ⟨group, _, hconfused⟩ :=
    exists_mem_of_mapM_eq_ok hgroups (List.mem_zipIdx_iff_getElem?.mpr hindex : (l, index) ∈ _)
  obtain ⟨ks, hks, hpairs⟩ := bind_eq_ok_iff.mp hconfused
  have hends : ∀ f k, Layout.Confuses v l f k → l.total < wordSize ∧ k.total < wordSize := by
    intro f k hconfuses
    have hk := (Layout.mem_iff_exists_confuses hv.capability_pos hks).mpr ⟨f, hconfuses⟩
    obtain ⟨confusedIndex, hindex⟩ := List.mem_iff_getElem?.mp hk
    obtain ⟨pairs, _, hpairs⟩ := exists_mem_of_mapM_eq_ok hpairs
      (List.mem_zipIdx_iff_getElem?.mpr hindex : (k, confusedIndex) ∈ _)
    obtain ⟨pair, _, hpair⟩ :=
      exists_mem_of_mapM_eq_ok hpairs (List.mem_cons_self : _ ∈ Opacity.all)
    exact total_lt_of_confusionPair_eq_ok hpair
  refine ⟨fun f hf => ?_, fun f hf hkind => ?_⟩
  · obtain ⟨g, hg, hkind⟩ := Layout.has_iff.mp hint
    obtain ⟨k, hconfuses⟩ := Layout.exists_confuses v hg hkind
    exact Nat.lt_of_le_of_lt (hsolid.stop_le_total hf) (hends g k hconfuses).1
  · obtain ⟨k, hconfuses⟩ := Layout.exists_confuses v hf hkind
    have hslot := (hconfuses.solid hv hsolid).stop_le_total hconfuses.slot_mem
    exact Nat.lt_of_le_of_lt hslot (hends f k hconfuses).2

/-- Where there is room, the type confusions of a list are two tests for every layout, every
confused layout of it and however the pointer is hidden. -/
theorem confusions_eq (hv : v.Valid) (hls : ∀ l ∈ ls, l.Solid v)
    (hroom : ∀ l ∈ ls, l.has .int = true → l.Roomy v) :
    confusions ls v = .ok (ls.zipIdx.flatMap fun (l, index) =>
      (l.confused v).zipIdx.flatMap fun (k, confusedIndex) => Opacity.all.flatMap fun opacity =>
        [readingTest l k (confusionName index confusedIndex) opacity,
          writingTest l k (confusionName index confusedIndex) opacity]) := by
  have htests : (ls.zipIdx.mapM fun (l, index) => do
      (← l.confusions v).zipIdx.mapM fun (k, confusedIndex) => Opacity.all.mapM fun opacity =>
        confusionPair (confusionName index confusedIndex) l k opacity) =
      .ok (ls.zipIdx.map fun (l, index) => (l.confused v).zipIdx.map fun (k, confusedIndex) =>
        Opacity.all.map fun opacity =>
          [readingTest l k (confusionName index confusedIndex) opacity,
            writingTest l k (confusionName index confusedIndex) opacity]) := by
    refine mapM_eq_ok_map ?_
    rintro ⟨l, index⟩ hl
    have hl := List.fst_mem_of_mem_zipIdx hl
    have hsolid := hls l hl
    have hconfusions := Layout.confusions_eq_confused hv.capability_pos (hroom l hl)
    refine bind_eq_ok_iff.mpr ⟨_, hconfusions, mapM_eq_ok_map ?_⟩
    rintro ⟨k, confusedIndex⟩ hk
    obtain ⟨f, hconfuses⟩ := (Layout.mem_iff_exists_confuses hv.capability_pos hconfusions).mp
      (List.fst_mem_of_mem_zipIdx hk)
    have hroomy := hroom l hl (Layout.has_iff.mpr ⟨f, hconfuses.mem, hconfuses.1⟩)
    exact mapM_eq_ok_map fun opacity _ => confusionPair_eq
      (hroomy.writable (hsolid.accessible hv)) (hconfuses.writable hv hsolid hroomy) _ opacity
  unfold confusionName at htests ⊢
  rw [confusions, htests]
  refine congrArg Except.ok ?_
  rw [flatten_flatten_map, flatten_flatMap]
  exact List.flatMap_congr fun p _ => flatten_flatMap _ _

theorem mem_confusionTests {index confusedIndex : Nat} {opacity : Opacity} {test : TestCase}
    (hl : ls[index]? = some l) (hk : (l.confused v)[confusedIndex]? = some k)
    (hopacity : opacity ∈ Opacity.all)
    (htest : test ∈ [readingTest l k (confusionName index confusedIndex) opacity,
      writingTest l k (confusionName index confusedIndex) opacity]) :
    test ∈ ls.zipIdx.flatMap fun (l, index) =>
      (l.confused v).zipIdx.flatMap fun (k, confusedIndex) => Opacity.all.flatMap fun opacity =>
        [readingTest l k (confusionName index confusedIndex) opacity,
          writingTest l k (confusionName index confusedIndex) opacity] := by
  refine List.mem_flatMap.mpr ⟨(l, index), List.mem_zipIdx_iff_getElem?.mpr hl, ?_⟩
  refine List.mem_flatMap.mpr ⟨(k, confusedIndex), List.mem_zipIdx_iff_getElem?.mpr hk, ?_⟩
  exact List.mem_flatMap.mpr ⟨opacity, hopacity, htest⟩

/-! ### How they end -/

/-- Where words hold the ends of all fields and slots of the layouts that have integers, and only
there, the tests can be written. Then for every layout, every confused layout of it and however the
pointer is hidden, the two tests of the pair store the one layout and load the other. The one that
reads the confused layout fails at the new capability and nowhere else, and the one that writes it
fails at an integer. -/
theorem confusions_told_apart (hv : v.defect? = none) (hls : ∀ l ∈ ls, l.Canonical v) :
    (confusions ls v = .error (.overflow .add) ∧ ∃ l ∈ ls, l.has .int = true ∧ ¬ l.Roomy v) ∨
    (∀ l ∈ ls, l.has .int = true → l.Roomy v) ∧ ∃ tests, confusions ls v = .ok tests ∧
      ∀ (l : Layout) (index : Nat), ls[index]? = some l → ∃ ks, l.confusions v = .ok ks ∧
        ∀ (k : Layout) (confusedIndex : Nat), ks[confusedIndex]? = some k →
          ∃ capability ∈ k.fields, capability ∉ l.fields ∧ ∀ opacity ∈ Opacity.all,
            ∃ read write,
              ⟨"combostorm_badtype" ++ toString index ++ "_" ++ toString confusedIndex ++ "_read" ++
                  opacity.suffix, .single read, .failure Expectation.safetyError⟩ ∈ tests ∧
              ⟨"combostorm_badtype" ++ toString index ++ "_" ++ toString confusedIndex ++
                  "_write" ++ opacity.suffix, .single write,
                .failure Expectation.userError⟩ ∈ tests ∧
              (stores read = l.fields.map (Field.access · 0) ∧
                (loads read).map Prod.fst = k.fields.map (Field.access · 0)) ∧
              (stores write = k.fields.map (Field.access · 0) ∧
                (loads write).map Prod.fst = l.fields.map (Field.access · 0)) ∧
              ReadsConfused v.capabilityWidth (capability.access 0) read ∧
              WritesConfused v.capabilityWidth (capability.access 0) write := by
  have hv := Variant.defect?_eq_none_iff.mp hv
  have hsolid : ∀ l ∈ ls, l.Solid v := fun l hl => (hls l hl).toSolid
  by_cases hroom : ∀ l ∈ ls, l.has .int = true → l.Roomy v
  · refine .inr ⟨hroom, _, confusions_eq hv hsolid hroom, ?_⟩
    intro l index hl
    have hmem := List.mem_of_getElem? hl
    have hconfusions := Layout.confusions_eq_confused hv.capability_pos (hroom l hmem)
    refine ⟨_, hconfusions, ?_⟩
    intro k confusedIndex hk
    obtain ⟨f, hconfuses⟩ :=
      (Layout.mem_iff_exists_confuses hv.capability_pos hconfusions).mp (List.mem_of_getElem? hk)
    have hsolid := hsolid l hmem
    refine ⟨Layout.slot v f.offset, hconfuses.slot_mem, hconfuses.slot_not_mem hv hsolid, ?_⟩
    intro opacity hopacity
    refine ⟨Scenario.body ⟨l, k, 0, opacity⟩, Scenario.body ⟨k, l, 0, opacity⟩,
      mem_confusionTests hl hk hopacity List.mem_cons_self,
      mem_confusionTests hl hk hopacity (List.mem_cons_of_mem _ List.mem_cons_self),
      ⟨Scenario.stores_body _, Scenario.map_fst_loads_body _⟩,
      ⟨Scenario.stores_body _, Scenario.map_fst_loads_body _⟩,
      hconfuses.readsConfused hv hsolid opacity, hconfuses.writesConfused hv hsolid opacity⟩
  · push Not at hroom
    obtain ⟨l, hl, hint, hsmall⟩ := hroom
    refine .inl ⟨?_, l, hl, hint, hsmall⟩
    rcases failsWith_confusions hv hsolid with ⟨tests, htests⟩ | herror
    · exact absurd (roomy_of_confusions_eq_ok hv htests hl (hsolid l hl) hint) hsmall
    · exact herror

/-- Three integers that start in the slot of the first one. The capability takes the place of all of
them, and the longer integer after them stays. There are machines on which only `hello` leads to its
text, so that the test that reads the capability fails. -/
theorem confusions_filc_told_apart :
    Variant.filc.defect? = none ∧
      Layout.Canonical .filc ⟨[⟨0, .int, 4⟩, ⟨4, .int, 2⟩, ⟨6, .int, 2⟩, ⟨8, .int, 8⟩]⟩ ∧
      ∃ tests read write,
        confusions [⟨[⟨0, .int, 4⟩, ⟨4, .int, 2⟩, ⟨6, .int, 2⟩, ⟨8, .int, 8⟩]⟩] .filc = .ok tests ∧
        ⟨"combostorm_badtype0_1_read", .single read, .failure Expectation.safetyError⟩ ∈ tests ∧
        ⟨"combostorm_badtype0_1_write", .single write, .failure Expectation.userError⟩ ∈ tests ∧
        ReadsConfused 8 ⟨.charPtr, 0⟩ read ∧ WritesConfused 8 ⟨.charPtr, 0⟩ write ∧
        ∀ start, ∃ failure, (default : Machine 8).run start read = .error failure := by
  have hvalid : Variant.filc.defect? = none := by decide
  have hcanonical : Layout.Canonical .filc
      ⟨[⟨0, .int, 4⟩, ⟨4, .int, 2⟩, ⟨6, .int, 2⟩, ⟨8, .int, 8⟩]⟩ :=
    ⟨⟨[.append .int 4, .append .int 2, .append .int 2, .append .int 8], by rfl⟩, by decide⟩
  rcases confusions_told_apart hvalid (List.forall_mem_singleton.mpr hcanonical) with
    ⟨_, l, hl, _, hsmall⟩ | ⟨_, tests, htests, hpairs⟩
  · rw [List.mem_singleton.mp hl] at hsmall
    exact absurd ⟨by decide, by decide⟩ hsmall
  · obtain ⟨ks, hks, hpairs⟩ := hpairs _ 0 rfl
    have hconfusions : Layout.confusions .filc
        ⟨[⟨0, .int, 4⟩, ⟨4, .int, 2⟩, ⟨6, .int, 2⟩, ⟨8, .int, 8⟩]⟩ =
        .ok [⟨[⟨0, .int, 4⟩, ⟨4, .int, 2⟩, ⟨6, .int, 2⟩, ⟨8, .ptr, 8⟩]⟩,
          ⟨[⟨0, .ptr, 8⟩, ⟨8, .int, 8⟩]⟩] := by cbv
    obtain rfl := Except.ok.inj (hconfusions.symm.trans hks)
    obtain ⟨capability, hcapability, hnew, hpairs⟩ := hpairs _ 1 rfl
    obtain rfl : capability = ⟨0, .ptr, 8⟩ := by
      rcases List.mem_cons.mp hcapability with hfirst | hlast
      · exact hfirst
      · rw [List.mem_singleton.mp hlast] at hnew
        exact absurd (by decide) hnew
    obtain ⟨read, write, hread, hwrite, _, _, hreads, hwrites⟩ :=
      hpairs ⟨true, true⟩ List.mem_cons_self
    exact ⟨hvalid, hcanonical, tests, read, write, htests, hread, hwrite, hreads, hwrites,
      fun start => hreads.fails default start Machine.faithful_default⟩

end TestSuite

end CapFixture
