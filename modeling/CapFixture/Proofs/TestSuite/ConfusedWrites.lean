import CapFixture.Proofs.TestSuite.Confusions

/-!
# Where writes of confused layouts end

The buffer of a test that writes a confused layout is as large as that layout. A slot that has taken
the place of a wider integer at the end makes it too small for the loads, and then the test does not
get to its assertions.

## Main definitions

- `TestProgram.FailsAtInt`, `TestProgram.LeavesBuffer` — the two ways in which such a test ends
- `Variant.narrow` — a variant with integers that are wider than its capabilities
-/

namespace CapFixture

open TestProgram

namespace TestProgram

/-- Every run gets to the assertions and fails at one about an integer. -/
def FailsAtInt (width : Nat) (test : List Statement) : Prop :=
  ∀ (m : Machine width) start, ∃ load ∈ loads test, load.1.type ≠ .charPtr ∧
    m.run start test = .error (.assertion load.2 .value)

/-- Every run ends at a load that leaves the buffer. -/
def LeavesBuffer (width : Nat) (test : List Statement) : Prop :=
  ∀ (m : Machine width) start, ∃ access, m.run start test = .error (.outOfBounds access)

end TestProgram

namespace Layout.Confuses

variable {v : Variant} {l k : Layout} {f : Field} (hv : v.Valid) (hl : Solid v l)
  (h : Confuses v l f k)

include hv hl h

/-- The loads stay within the buffer where the slot has not cut the layout off at its end. -/
theorem forall_inside_iff (opacity : Opacity) :
    (∀ load ∈ loads (Scenario.body ⟨k, l, 0, opacity⟩), load.1.Inside v.capabilityWidth k.total) ↔
      KeepsEnd v l k := by
  rw [Scenario.forall_mem_loads_body (p := (·.Inside v.capabilityWidth k.total)),
    ← h.forall_stop_le_total_iff hv hl]
  exact forall₂_congr fun g hg => (hl.accessible hv g hg).inside_iff

theorem failsAtInt (opacity : Opacity) (hkeeps : KeepsEnd v l k) :
    FailsAtInt v.capabilityWidth (Scenario.body ⟨k, l, 0, opacity⟩) := by
  intro m start
  have hwrites := h.writesConfused hv hl opacity
  have hinside := (h.forall_inside_iff hv hl opacity).mpr hkeeps
  obtain ⟨failure, hrun, load, hload, hunwritten, hconcerns⟩ := hwrites.fails_at m start
  cases failure with
  | outOfBounds access =>
    obtain ⟨load, hload, hout⟩ := Machine.exists_not_inside_of_run_eq_outOfBounds
      (s := ⟨k, l, 0, opacity⟩) hv (h.solid hv hl) hrun
    exact absurd (hinside load hload) hout
  | assertion index expected =>
    obtain ⟨rfl, hexpected⟩ := hconcerns
    have hint := (hwrites.unwritten_int _ hunwritten).1
    obtain rfl : expected = .value := by
      cases expected with
      | hello => exact absurd (hexpected.mp rfl) hint
      | value => rfl
    exact ⟨load, hload, hint, hrun⟩

theorem leavesBuffer (opacity : Opacity) (hcut : ¬ KeepsEnd v l k) :
    LeavesBuffer v.capabilityWidth (Scenario.body ⟨k, l, 0, opacity⟩) := by
  intro m start
  have hout := mt (h.forall_inside_iff hv hl opacity).mp hcut
  push Not at hout
  obtain ⟨load, _, hrun⟩ := Machine.exists_run_eq_outOfBounds (s := ⟨k, l, 0, opacity⟩) hv
    (h.solid hv hl) m start hout
  exact ⟨load.1, hrun⟩

end Layout.Confuses

namespace TestSuite

variable {v : Variant}

/-- For every layout of the enumeration, every confused layout of it and however the pointer is
hidden, the test that writes the confused layout stays within its buffer exactly where the slot has
not cut the layout off at its end. Only then it fails as its manifest says. -/
theorem confusions_write_inside_iff (hv : v.defect? = none) :
    ∃ ls tests, enumerate v = .ok ls ∧ confusions ls v = .ok tests ∧
      ∀ (l : Layout) (index : Nat), ls[index]? = some l → ∃ ks, l.confusions v = .ok ks ∧
        ∀ (k : Layout) (confusedIndex : Nat), ks[confusedIndex]? = some k →
          ((∀ f ∈ l.fields, f.stop ≤ k.total) ↔ l.KeepsEnd v k) ∧
          ∀ opacity ∈ Opacity.all, ∃ write,
            ⟨"combostorm_badtype" ++ toString index ++ "_" ++ toString confusedIndex ++ "_write" ++
                opacity.suffix, .single write, .failure Expectation.userError⟩ ∈ tests ∧
            allocated write = k.total ∧
            (loads write).map Prod.fst = l.fields.map (Field.access · 0) ∧
            ((∀ load ∈ loads write, load.1.Inside v.capabilityWidth (allocated write)) ↔
              l.KeepsEnd v k) ∧
            (l.KeepsEnd v k → FailsAtInt v.capabilityWidth write) ∧
            (¬ l.KeepsEnd v k → LeavesBuffer v.capabilityWidth write) := by
  have hv := Variant.defect?_eq_none_iff.mp hv
  obtain ⟨ls, hls, _⟩ := exists_enumerate hv
  have hpossible : ∀ l ∈ ls, l.Possible v := fun l hl => possible_of_mem_enumerate hv hls hl
  have hroom : ∀ l ∈ ls, l.has .int = true → l.Roomy v := fun l hl _ => (hpossible l hl).roomy hv
  have htests := confusions_eq hv (fun l hl => (hpossible l hl).toSolid) hroom
  refine ⟨ls, _, hls, htests, ?_⟩
  intro l index hl
  have hmem := List.mem_of_getElem? hl
  have hsolid := (hpossible l hmem).toSolid
  have hconfusions := Layout.confusions_eq_confused hv.capability_pos (hroom l hmem)
  refine ⟨_, hconfusions, ?_⟩
  intro k confusedIndex hk
  obtain ⟨f, hconfuses⟩ :=
    (Layout.mem_iff_exists_confuses hv.capability_pos hconfusions).mp (List.mem_of_getElem? hk)
  refine ⟨hconfuses.forall_stop_le_total_iff hv hsolid, ?_⟩
  intro opacity hopacity
  have hwrite := mem_confusionTests hl hk hopacity (List.mem_cons_of_mem _ List.mem_cons_self)
  refine ⟨_, hwrite, rfl, ?_, ?_, ?_, ?_⟩
  · exact Scenario.map_fst_loads_body _
  · exact hconfuses.forall_inside_iff hv hsolid opacity
  · exact hconfuses.failsAtInt hv hsolid opacity
  · exact hconfuses.leavesBuffer hv hsolid opacity

/-- Integers and capabilities of eight bytes. The slot is as wide as the integer, and the test fails
as its manifest says. -/
theorem confusions_write_eight :
    enumerate ⟨"eight", 1, [8], [0], 8, 8⟩ =
        .ok [⟨[⟨0, .int, 8⟩]⟩, ⟨[⟨0, .ptr, 8⟩]⟩] ∧
      Layout.confusions ⟨"eight", 1, [8], [0], 8, 8⟩ ⟨[⟨0, .int, 8⟩]⟩ =
        .ok [⟨[⟨0, .ptr, 8⟩]⟩] ∧
      ∃ tests write,
        confusions [⟨[⟨0, .int, 8⟩]⟩, ⟨[⟨0, .ptr, 8⟩]⟩] ⟨"eight", 1, [8], [0], 8, 8⟩ = .ok tests ∧
        ⟨"combostorm_badtype0_0_write", .single write, .failure Expectation.userError⟩ ∈ tests ∧
        FailsAtInt 8 write := by
  let v : Variant := ⟨"eight", 1, [8], [0], 8, 8⟩
  have henumerate : enumerate v = .ok [⟨[⟨0, .int, 8⟩]⟩, ⟨[⟨0, .ptr, 8⟩]⟩] := by cbv
  have hconfusions : Layout.confusions v ⟨[⟨0, .int, 8⟩]⟩ = .ok [⟨[⟨0, .ptr, 8⟩]⟩] := by cbv
  obtain ⟨ls, tests, hls, htests, hwrites⟩ :=
    confusions_write_inside_iff (show v.defect? = none by decide)
  obtain rfl := Except.ok.inj (henumerate.symm.trans hls)
  obtain ⟨ks, hks, hwrites⟩ := hwrites ⟨[⟨0, .int, 8⟩]⟩ 0 rfl
  obtain rfl := Except.ok.inj (hconfusions.symm.trans hks)
  obtain ⟨_, hwrites⟩ := hwrites ⟨[⟨0, .ptr, 8⟩]⟩ 0 rfl
  obtain ⟨write, hmem, _, _, _, hfails, _⟩ := hwrites ⟨true, true⟩ (by decide)
  refine ⟨henumerate, hconfusions, tests, write, htests, hmem, hfails ?_⟩
  intro last hlast
  obtain rfl := Option.some.inj hlast
  exact .inr (Nat.le_refl 8)

end TestSuite

/-- A valid variant with an integer that is wider than a capability. -/
def Variant.narrow : Variant where
  name := "narrow"
  byteLimit := 1
  intSizes := [16]
  paddingAmounts := [0]
  capabilityWidth := 8
  recursionStep := 16

namespace TestSuite

/-- The slot has eight of the integer's sixteen bytes. The integer stops past the end of the
confused layout, and the test leaves its buffer, although its manifest expects an assertion to fail.
-/
theorem confusions_write_narrow :
    Variant.narrow.defect? = none ∧
      enumerate .narrow = .ok [⟨[⟨0, .int, 16⟩]⟩, ⟨[⟨0, .ptr, 8⟩]⟩] ∧
      Layout.confusions .narrow ⟨[⟨0, .int, 16⟩]⟩ = .ok [⟨[⟨0, .ptr, 8⟩]⟩] ∧
      ¬ Field.stop ⟨0, .int, 16⟩ ≤ Layout.total ⟨[⟨0, .ptr, 8⟩]⟩ ∧
      ∃ tests write,
        confusions [⟨[⟨0, .int, 16⟩]⟩, ⟨[⟨0, .ptr, 8⟩]⟩] .narrow = .ok tests ∧
        ⟨"combostorm_badtype0_0_write", .single write, .failure Expectation.userError⟩ ∈ tests ∧
        allocated write = 8 ∧ loads write = [(⟨.int128, 0⟩, 0)] ∧ LeavesBuffer 8 write := by
  have hvalid : Variant.narrow.defect? = none := by decide
  have hv := Variant.defect?_eq_none_iff.mp hvalid
  have henumerate : enumerate .narrow = .ok [⟨[⟨0, .int, 16⟩]⟩, ⟨[⟨0, .ptr, 8⟩]⟩] := by cbv
  have hconfusions : Layout.confusions .narrow ⟨[⟨0, .int, 16⟩]⟩ = .ok [⟨[⟨0, .ptr, 8⟩]⟩] := by cbv
  have hpossible : ∀ l ∈ [⟨[⟨0, .int, 16⟩]⟩, ⟨[⟨0, .ptr, 8⟩]⟩], Layout.Possible .narrow l :=
    fun l hl => possible_of_mem_enumerate hv henumerate hl
  have hptr := (hpossible ⟨[⟨0, .ptr, 8⟩]⟩ (by decide)).toSolid
  have htests := confusions_eq hv (fun l hl => (hpossible l hl).toSolid)
    fun l hl _ => (hpossible l hl).roomy hv
  have hconfused := Layout.confusions_eq_confused hv.capability_pos
    fun _ => (hpossible ⟨[⟨0, .int, 16⟩]⟩ (by decide)).roomy hv
  have hl : [⟨[⟨0, .int, 16⟩]⟩, ⟨[⟨0, .ptr, 8⟩]⟩][0]? = some (⟨[⟨0, .int, 16⟩]⟩ : Layout) := rfl
  have hk : (Layout.confused .narrow ⟨[⟨0, .int, 16⟩]⟩)[0]? = some ⟨[⟨0, .ptr, 8⟩]⟩ := by
    rw [Except.ok.inj (hconfused.symm.trans hconfusions)]
    rfl
  have hwrite := mem_confusionTests hl hk (List.mem_cons_self : ⟨true, true⟩ ∈ Opacity.all)
    (List.mem_cons_of_mem _ List.mem_cons_self)
  refine ⟨hvalid, henumerate, hconfusions, by decide, _, _, htests, hwrite, rfl, rfl, ?_⟩
  intro m start
  obtain ⟨load, _, hrun⟩ := Machine.exists_run_eq_outOfBounds
    (s := ⟨⟨[⟨0, .ptr, 8⟩]⟩, ⟨[⟨0, .int, 16⟩]⟩, 0, ⟨true, true⟩⟩) hv hptr m start
    ⟨(⟨.int128, 0⟩, 0), List.mem_cons_self, by decide⟩
  exact ⟨load.1, hrun⟩

end TestSuite

end CapFixture
