import CapFixture.Proofs.TestProgram.Functions
import CapFixture.Proofs.TestSuite.Labels

/-!
# Programs of round trips

Ten layouts share a program of round trips, and its functions are numbered through all of them. It
is read off the text of a program that none of its tests is left out and none is run twice.
-/

namespace CapFixture.TestSuite

open TestProgram

variable {v : Variant} {l : Layout} {ls group : List Layout} {c : Nat}

theorem getElem?_groups (h : (groups ls)[c]? = some group) :
    group = (ls.drop (10 * c)).take 10 := by
  induction ls using groups.induct generalizing c with
  | case1 => simp [groups] at h
  | case2 l rest ih =>
    rw [groups] at h
    cases c with
    | zero => exact (Option.some.inj h).symm
    | succ c =>
      have hdrop : (l :: rest).drop (10 * (c + 1)) = (rest.drop 9).drop (10 * c) := by
        rw [Nat.mul_succ, List.drop_succ_cons, List.drop_drop, Nat.add_comm]
      rw [hdrop]
      exact ih h

/-- Where words hold the ends of all layouts, and only there, every ten of them have a program. It
tests them in their order and leaves nothing out. It is read off its text what the tests write and
read. -/
theorem roundTrips_grouped (hv : v.defect? = none) (hls : ∀ l ∈ ls, l.Canonical v) :
    (roundTrips ls = .error (.overflow .add) ∧ ∃ l ∈ ls, wordSize ≤ l.total) ∨
    (∀ l ∈ ls, l.total < wordSize) ∧
    ∃ tests, roundTrips ls = .ok tests ∧ tests.length = (ls.length + 9) / 10 ∧
      ∀ c test, tests[c]? = some test → test.name = "combostorm_success" ++ toString c ∧
        ∃ bodies,
          List.Forall₂ (fun s body => s.statements = .ok body ∧
              scenario? v.capabilityWidth body = some s)
            (((ls.drop (10 * c)).take 10).flatMap roundTripsOf) bodies ∧
          testsIn test.program.render = bodies ∧ RunsTests test.program.render bodies := by
  have hv := Variant.defect?_eq_none_iff.mp hv
  have haccessible : ∀ l ∈ ls, l.Accessible v := fun l hl => (hls l hl).toSolid.accessible hv
  rcases roundTrips_cases haccessible with herror | hwritable
  · exact .inl herror
  refine .inr ⟨fun l hl => (hwritable l hl).fits, _, roundTrips_eq hwritable, ?_,
    fun c test htest => ?_⟩
  · rw [List.length_map, List.length_zipIdx, length_groups]
  · rw [List.getElem?_map, List.getElem?_zipIdx, Option.map_map] at htest
    obtain ⟨group, hgroup, rfl⟩ := Option.map_eq_some_iff.mp htest
    obtain rfl := getElem?_groups hgroup
    have hname := congrArg (fun i => "combostorm_success" ++ toString i) (Nat.zero_add c)
    refine ⟨hname, _, ?_, testsIn_several _, runsTests_several _⟩
    rw [List.forall₂_map_right_iff, List.flatMap_congr fun l _ => (roundTripScenarios_eq l).symm,
      List.forall₂_same]
    intro s hs
    obtain ⟨l, hl, hs⟩ := List.mem_flatMap.mp hs
    have hmem : l ∈ ls := List.mem_of_mem_drop (List.mem_of_mem_take hl)
    exact scenario?_of_mem_roundTripScenarios (hwritable l hmem) hs

/-- The eleventh layout has a program of its own, with one test for each kind of pointer. -/
theorem roundTrips_eleven_grouped :
    Variant.filc.defect? = none ∧
      (∀ l ∈ List.replicate 10 ⟨[⟨0, .ptr, 8⟩, ⟨8, .int, 4⟩]⟩ ++ [⟨[⟨0, .int, 4⟩]⟩],
        Layout.Canonical .filc l) ∧
      ∃ first second firstBodies secondBodies,
        roundTrips (List.replicate 10 ⟨[⟨0, .ptr, 8⟩, ⟨8, .int, 4⟩]⟩ ++ [⟨[⟨0, .int, 4⟩]⟩]) =
          .ok [first, second] ∧
        RunsTests first.program.render firstBodies ∧ firstBodies.length = 80 ∧
        RunsTests second.program.render secondBodies ∧ secondBodies.length = 4 := by
  have hvalid : Variant.filc.defect? = none := by decide
  have hlayouts : ∀ l ∈ List.replicate 10 ⟨[⟨0, .ptr, 8⟩, ⟨8, .int, 4⟩]⟩ ++ [⟨[⟨0, .int, 4⟩]⟩],
      Layout.Canonical .filc l ∧ l.total < wordSize := by
    intro l hl
    rcases List.mem_append.mp hl with hl | hl
    · obtain rfl := List.eq_of_mem_replicate hl
      exact ⟨⟨⟨[.append .ptr 8, .append .int 4], by rfl⟩, by decide⟩, by decide⟩
    · obtain rfl := List.mem_singleton.mp hl
      exact ⟨⟨⟨[.append .int 4], by rfl⟩, by decide⟩, by decide⟩
  have hcanonical := fun l hl => (hlayouts l hl).1
  rcases roundTrips_grouped hvalid hcanonical with
    ⟨_, l, hl, hlarge⟩ | ⟨_, tests, htests, hlength, hgroups⟩
  · exact absurd (hlayouts l hl).2 (Nat.not_lt_of_le hlarge)
  · obtain ⟨first, second, rfl⟩ := List.length_eq_two.mp hlength
    obtain ⟨-, firstBodies, hfirst, -, hfirstRuns⟩ := hgroups 0 first rfl
    obtain ⟨-, secondBodies, hsecond, -, hsecondRuns⟩ := hgroups 1 second rfl
    exact ⟨hvalid, hcanonical, first, second, firstBodies, secondBodies, htests, hfirstRuns,
      hfirst.length_eq.symm, hsecondRuns, hsecond.length_eq.symm⟩

end CapFixture.TestSuite
