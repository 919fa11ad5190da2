import CapFixture.Proofs.TestProgram.ReadingBack
import CapFixture.Proofs.TestSuite.Labels

/-!
# Programs that are told apart

No two programs of a single test have the same text, whichever layouts they are about. Layouts never
swap roles: of two layouts at most one is a confused layout of the other.

## Main definitions

- `TestSuite.confusedPairs` — the layouts with their confused layouts
- `TestSuite.scenarios` — what all programs of a single test write and read, in their order
-/

namespace CapFixture

open TestProgram

variable {v : Variant} {l : Layout} {ls : List Layout}

theorem Layout.nodup_confused (v : Variant) (l : Layout) : (l.confused v).Nodup := by
  unfold confused
  split
  · next hks => exact nodup_of_pairwise_precedes (pairwise_precedes_confusions hks)
  · exact List.nodup_nil

namespace TestSuite

variable {s : Scenario} {pair : Layout × Layout}

/-- Every layout with each of its confused layouts. -/
def confusedPairs (v : Variant) (ls : List Layout) : List (Layout × Layout) :=
  ls.flatMap fun l => (l.confused v).map fun k => (l, k)

/-- What the programs of a layout do that read it outside of its buffer. -/
def displacedScenarios (l : Layout) : List Scenario :=
  Opacity.all.flatMap fun opacity =>
    [⟨l, l, -displacement, opacity⟩, ⟨l, l, displacement, opacity⟩]

/-- What the programs of a layout and a confused layout do: they write the one and read the
other. -/
def confusedScenarios (pair : Layout × Layout) : List Scenario :=
  Opacity.all.flatMap fun opacity =>
    [⟨pair.1, pair.2, 0, opacity⟩, ⟨pair.2, pair.1, 0, opacity⟩]

/-- What the programs of a single test do, in the order of the tests. -/
def scenarios (v : Variant) (ls : List Layout) : List Scenario :=
  ls.flatMap displacedScenarios ++ (confusedPairs v ls).flatMap confusedScenarios

/-! ### Scenarios -/

theorem of_mem_confusedPairs (hv : v.Valid) (h : pair ∈ confusedPairs v ls) :
    pair.1 ∈ ls ∧ ∃ f, Layout.Confuses v pair.1 f pair.2 := by
  obtain ⟨l, hl, h⟩ := List.mem_flatMap.mp h
  obtain ⟨k, hk, rfl⟩ := List.mem_map.mp h
  exact ⟨hl, Layout.exists_confuses_of_mem_confused hv.capability_pos hk⟩

theorem nodup_confusedPairs (v : Variant) (hnodup : ls.Nodup) : (confusedPairs v ls).Nodup := by
  refine List.nodup_flatMap.mpr ⟨fun l _ => ?_, hnodup.imp fun {l l'} hne => ?_⟩
  · exact (l.nodup_confused v).map fun k k' h => congrArg Prod.snd h
  · intro pair hpair hpair'
    obtain ⟨k, _, rfl⟩ := List.mem_map.mp hpair
    obtain ⟨k', _, heq⟩ := List.mem_map.mp hpair'
    exact hne (congrArg Prod.fst heq).symm

theorem of_mem_displacedScenarios (h : s ∈ displacedScenarios l) :
    s.written = l ∧ s.read = l ∧ s.displacement ≠ 0 := by
  have hne : displacement ≠ 0 ∧ -displacement ≠ 0 := by decide
  obtain ⟨opacity, _, h⟩ := List.mem_flatMap.mp h
  rcases List.mem_cons.mp h with rfl | h
  · exact ⟨rfl, rfl, hne.2⟩
  · obtain rfl := List.mem_singleton.mp h
    exact ⟨rfl, rfl, hne.1⟩

theorem of_mem_confusedScenarios (h : s ∈ confusedScenarios pair) :
    ((s.written, s.read) = pair ∨ (s.read, s.written) = pair) ∧ s.displacement = 0 := by
  obtain ⟨opacity, _, h⟩ := List.mem_flatMap.mp h
  rcases List.mem_cons.mp h with rfl | h
  · exact ⟨.inl rfl, rfl⟩
  · obtain rfl := List.mem_singleton.mp h
    exact ⟨.inr rfl, rfl⟩

theorem nodup_displacedScenarios (l : Layout) : (displacedScenarios l).Nodup := by
  simp [displacedScenarios, Opacity.all, displacement]

theorem nodup_confusedScenarios (h : pair.1 ≠ pair.2) : (confusedScenarios pair).Nodup := by
  simp [confusedScenarios, Opacity.all, h, h.symm]

/-- Programs of different pairs do different things, also where one pair has its layouts the other
way around. -/
theorem nodup_flatMap_confusedScenarios (hv : v.Valid) (hls : ∀ l ∈ ls, l.Solid v)
    (hnodup : ls.Nodup) : ((confusedPairs v ls).flatMap confusedScenarios).Nodup := by
  have hasymm : ∀ pair ∈ confusedPairs v ls, ∀ pair' ∈ confusedPairs v ls, pair ≠ pair'.swap := by
    intro pair hpair pair' hpair' heq
    obtain ⟨hl, f, h⟩ := of_mem_confusedPairs hv hpair
    obtain ⟨_, g, h'⟩ := of_mem_confusedPairs hv hpair'
    rw [heq] at hl h
    exact h.asymm hv (hls _ hl) h'
  refine List.nodup_flatMap.mpr ⟨fun pair hpair => ?_, ?_⟩
  · exact nodup_confusedScenarios fun heq => hasymm pair hpair pair hpair (Prod.ext heq heq.symm)
  · refine (nodup_confusedPairs v hnodup).imp_of_mem ?_
    intro pair pair' hpair hpair' hne s hs hs'
    obtain ⟨hpairs, _⟩ := of_mem_confusedScenarios hs
    obtain ⟨hpairs', _⟩ := of_mem_confusedScenarios hs'
    rcases hpairs with rfl | rfl <;> rcases hpairs' with rfl | rfl
    · exact hne rfl
    · exact hasymm _ hpair _ hpair' rfl
    · exact hasymm _ hpair _ hpair' rfl
    · exact hne rfl

theorem nodup_scenarios (hv : v.Valid) (hls : ∀ l ∈ ls, l.Solid v) (hnodup : ls.Nodup) :
    (scenarios v ls).Nodup := by
  refine List.nodup_append.mpr ⟨?_, nodup_flatMap_confusedScenarios hv hls hnodup, ?_⟩
  · refine List.nodup_flatMap.mpr ⟨fun l _ => nodup_displacedScenarios l, hnodup.imp ?_⟩
    intro l l' hne s hs hs'
    exact hne ((of_mem_displacedScenarios hs).1.symm.trans (of_mem_displacedScenarios hs').1)
  · -- only the displaced programs move the pointer
    rintro s hs _ hs' rfl
    obtain ⟨l, _, hs⟩ := List.mem_flatMap.mp hs
    obtain ⟨pair, _, hs'⟩ := List.mem_flatMap.mp hs'
    exact (of_mem_displacedScenarios hs).2.2 (of_mem_confusedScenarios hs').2

theorem accessible_of_mem_scenarios (hv : v.Valid) (hls : ∀ l ∈ ls, l.Solid v)
    (hs : s ∈ scenarios v ls) : s.written.Accessible v ∧ s.read.Accessible v := by
  rcases List.mem_append.mp hs with hs | hs
  · obtain ⟨l, hl, hs⟩ := List.mem_flatMap.mp hs
    obtain ⟨rfl, hread, _⟩ := of_mem_displacedScenarios hs
    have haccessible := (hls _ hl).accessible hv
    exact ⟨haccessible, hread ▸ haccessible⟩
  · obtain ⟨⟨l, k⟩, hpair, hs⟩ := List.mem_flatMap.mp hs
    obtain ⟨hl, f, hconfuses⟩ := of_mem_confusedPairs hv hpair
    have hfirst := (hls l hl).accessible hv
    have hsecond := (hconfuses.solid hv (hls l hl)).accessible hv
    obtain ⟨hroles, _⟩ := of_mem_confusedScenarios hs
    rcases hroles with heq | heq
    · cases heq
      exact ⟨hfirst, hsecond⟩
    · cases heq
      exact ⟨hsecond, hfirst⟩

/-! ### Programs -/

/-- The displaced tests and the type confusions are those of the scenarios, in their order. -/
theorem exists_single_programs (hv : v.Valid) (hls : ∀ l ∈ ls, l.Solid v)
    (hroom : ∀ l ∈ ls, l.Roomy v) :
    ∃ far confused, outOfBounds ls = .ok far ∧ confusions ls v = .ok confused ∧
      (far ++ confused).map TestCase.program =
        (scenarios v ls).map fun s => .single s.body := by
  have hwritable : ∀ l ∈ ls, l.Writable v := fun l hl =>
    (hroom l hl).writable ((hls l hl).accessible hv)
  refine ⟨_, _, outOfBounds_eq hwritable, confusions_eq hv hls fun l hl _ => hroom l hl, ?_⟩
  rw [List.map_append, scenarios, List.map_append]
  refine congrArg₂ _ ?_ ?_
  · rw [flatten_flatten_map, List.map_flatMap, List.map_flatMap]
    refine Eq.trans ?_ (flatMap_zipIdx_fst ls _)
    exact List.flatMap_congr fun p _ => rfl
  · rw [confusedPairs, List.flatMap_assoc, List.map_flatMap, List.map_flatMap]
    refine Eq.trans (List.flatMap_congr fun p _ => ?_) (flatMap_zipIdx_fst ls _)
    rw [List.flatMap_map, List.map_flatMap, List.map_flatMap]
    refine Eq.trans ?_ (flatMap_zipIdx_fst (p.1.confused v) _)
    exact List.flatMap_congr fun q _ => rfl

/-- Where there is too little room for a layout, one of the families cannot be written. -/
theorem families_eq_error (hv : v.Valid) (hls : ∀ l ∈ ls, l.Solid v)
    (hroom : ¬ ∀ l ∈ ls, l.Roomy v) :
    outOfBounds ls = .error (.overflow .add) ∨ confusions ls v = .error (.overflow .add) := by
  have haccessible : ∀ l ∈ ls, l.Accessible v := fun l hl => (hls l hl).accessible hv
  rcases failsWith_outOfBounds haccessible with ⟨far, hfar⟩ | herror
  · refine .inr ((failsWith_confusions hv hls).resolve_left ?_)
    rintro ⟨confused, hconfused⟩
    exact hroom fun l hl => (hls l hl).roomy (total_lt_of_outOfBounds_eq_ok hfar hl)
      (roomy_of_confusions_eq_ok hv hconfused hl (hls l hl))
  · exact .inl herror

/-- Where words hold the ends of all fields and slots of different layouts without padding, and only
there, the programs of displaced tests and of type confusions can be written. No two of them have
the same text, and from each text it is read back which layout is written, which one is read, by how
much the pointer is moved and where it is hidden. -/
theorem programs_told_apart (hv : v.defect? = none) (hls : ∀ l ∈ ls, l.Canonical v)
    (hnodup : ls.Nodup) :
    ((outOfBounds ls = .error (.overflow .add) ∨ confusions ls v = .error (.overflow .add)) ∧
      ¬ ∀ l ∈ ls, l.Roomy v) ∨
    (∀ l ∈ ls, l.Roomy v) ∧
    ∃ far confused, outOfBounds ls = .ok far ∧ confusions ls v = .ok confused ∧
      ((far ++ confused).map fun test => test.program.render).Nodup ∧
      ((far ++ confused).map fun test => scenarioIn v.capabilityWidth test.program.render) =
        (scenarios v ls).map some := by
  have hv := Variant.defect?_eq_none_iff.mp hv
  have hsolid : ∀ l ∈ ls, l.Solid v := fun l hl => (hls l hl).toSolid
  by_cases hroom : ∀ l ∈ ls, l.Roomy v
  case neg => exact .inl ⟨families_eq_error hv hsolid hroom, hroom⟩
  obtain ⟨far, confused, hfar, hconfused, hprograms⟩ := exists_single_programs hv hsolid hroom
  have hread : ((far ++ confused).map fun test => test.program.render).map
      (scenarioIn v.capabilityWidth) = (scenarios v ls).map some := by
    have hrender : (fun test : TestCase => test.program.render) =
        Program.render ∘ TestCase.program := rfl
    rw [hrender, ← List.map_map, hprograms, List.map_map, List.map_map]
    refine List.map_congr_left fun s hs => ?_
    obtain ⟨hwritten, hread⟩ := accessible_of_mem_scenarios hv hsolid hs
    exact Scenario.scenarioIn_single hwritten hread
  refine .inr ⟨hroom, far, confused, hfar, hconfused, ?_, ?_⟩
  · -- programs with the same text would do the same
    apply List.Nodup.of_map (scenarioIn v.capabilityWidth)
    rw [hread]
    exact (nodup_scenarios hv hsolid hnodup).map (Option.some_injective _)
  · rw [← hread, List.map_map]
    rfl

/-- An integer and the capability that it is confused with. -/
theorem programs_filc_told_apart :
    Variant.filc.defect? = none ∧ Layout.Canonical .filc ⟨[⟨0, .int, 8⟩]⟩ ∧
      Layout.Canonical .filc ⟨[⟨0, .ptr, 8⟩]⟩ ∧
      ∃ far confused, outOfBounds [⟨[⟨0, .int, 8⟩]⟩, ⟨[⟨0, .ptr, 8⟩]⟩] = .ok far ∧
        confusions [⟨[⟨0, .int, 8⟩]⟩, ⟨[⟨0, .ptr, 8⟩]⟩] .filc = .ok confused ∧
        (far ++ confused).length = 24 ∧
        ((far ++ confused).map fun test => test.program.render).Nodup := by
  have hvalid : Variant.filc.defect? = none := by decide
  have hint : Layout.Canonical .filc ⟨[⟨0, .int, 8⟩]⟩ := ⟨⟨[.append .int 8], by rfl⟩, by decide⟩
  have hptr : Layout.Canonical .filc ⟨[⟨0, .ptr, 8⟩]⟩ := ⟨⟨[.append .ptr 8], by rfl⟩, by decide⟩
  have hroom : ∀ l ∈ [⟨[⟨0, .int, 8⟩]⟩, ⟨[⟨0, .ptr, 8⟩]⟩], Layout.Roomy .filc l := by
    refine List.forall_mem_cons.mpr ⟨⟨by decide, by decide⟩, List.forall_mem_singleton.mpr ?_⟩
    exact ⟨by decide, by decide⟩
  rcases programs_told_apart hvalid
    (List.forall_mem_cons.mpr ⟨hint, List.forall_mem_singleton.mpr hptr⟩) (by decide) with
    ⟨_, hsmall⟩ | ⟨_, far, confused, hfar, hconfused, hnodup, hread⟩
  · exact absurd hroom hsmall
  · have hlength := congrArg List.length hread
    have hscenarios : (scenarios .filc [⟨[⟨0, .int, 8⟩]⟩, ⟨[⟨0, .ptr, 8⟩]⟩]).length = 24 := by rfl
    rw [List.length_map, List.length_map, hscenarios] at hlength
    exact ⟨hvalid, hint, hptr, far, confused, hfar, hconfused, hlength, hnodup⟩

end TestSuite

end CapFixture
