import CapFixture.Proofs.Enumeration

/-!
# What the enumeration depends on

Variants that agree on the limit, the capability width and the search step can be compared by
which widths and gaps they list. The one with more of them finds everything that the other one
finds, and neither their order nor repetitions make a difference.

## Main definitions

- `Variant.Comparable` — two variants that differ in names, widths and gaps only
-/

namespace CapFixture

/-- The two variants may have different names, integer widths and gaps, but agree otherwise. -/
structure Variant.Comparable (v w : Variant) : Prop where
  limit : v.byteLimit = w.byteLimit
  capability : v.capabilityWidth = w.capabilityWidth
  step : v.recursionStep = w.recursionStep

namespace Enumeration

variable {v w : Variant} {width gap : Nat} {l k : Layout}

/-! ### The grid -/

/-- An alternation is the same under every variant with its width and the same limit. -/
theorem fill_congr (h : v.Comparable w) (hc : Alternates v width gap) (hw : width ∈ w.intSizes)
    (hl : l.total < wordSize) : fill v width gap l = fill w width gap l := by
  refine alternation_induction hc (motive := fun l => fill v width gap l = fill w width gap l)
    ?past ?round l hl
  case past =>
    intro l hfits hpast
    rw [fill_past hfits hpast, fill_past hfits (h.limit ▸ hpast)]
  case round =>
    intro l wider next hfits hl hwider hnext ih
    have hallows : v.allows .int width = w.allows .int width := by
      simp [Variant.allows, hc.mem, hw]
    have hwider' : l.append w .int width = .ok wider := by
      rw [← Layout.append_congr hallows, hwider]
    have hnext' : wider.append w .padding gap = .ok next :=
      (Layout.append_congr rfl wider).trans hnext
    rw [fill_within hfits hl hwider hnext, fill_within hfits (h.limit ▸ hl) hwider' hnext', ih]

theorem Start.congr (hl : Start v gap l) (w : Variant) : Start w gap l := by
  cases hl with
  | empty => exact .empty
  | lead hl => exact .lead ((Layout.append_congr rfl .empty).trans hl)

theorem mem_recorded_grid_of_subset (h : v.Comparable w) (hv : v.Valid) (hw : w.Valid)
    (hints : v.intSizes ⊆ w.intSizes) (hgaps : v.paddingAmounts ⊆ w.paddingAmounts)
    (hk : k ∈ (grid v).recorded) : k ∈ (grid w).recorded := by
  rw [mem_recorded_grid hv.fillable] at hk
  rw [mem_recorded_grid hw.fillable]
  obtain ⟨width, hwidth, gap, hgap, start, last, hstart, hlast, hk⟩ := hk
  have hc := hv.fillable.alternates hwidth hgap
  have hlast' : fill w width gap start = .ok last := by
    rw [← fill_congr h hc (hints hwidth) (hstart.total_lt hc.gap_lt), hlast]
  exact ⟨width, hints hwidth, gap, hgaps hgap, start, last, hstart.congr w, hlast', hk⟩

/-! ### The search -/

/-- The search does not look at the lists, as long as they have its step. -/
theorem search_congr (h : v.Comparable w) (hv : v.Moving) (hw : w.Moving) (l : Layout) :
    search v l = search w l := by
  have hmoves : moves v = moves w := by rw [moves, moves, h.step, h.capability]
  induction l using search_induction hv with
  | large l hlarge => rw [search_of_large hlarge, search_of_large hlarge]
  | past l hfits hpast => rw [search_past hfits hpast, search_past hfits (h.limit ▸ hpast)]
  | within l hfits hl ih =>
    rw [search_eq_branches hfits hl, search_eq_branches hfits (h.limit ▸ hl), ← hmoves]
    apply Run.each_congr
    intro move hm
    have hallows : v.allows move.1 move.2 = w.allows move.1 move.2 := by
      rw [allows_of_mem_moves hv hm, allows_of_mem_moves hw (hmoves ▸ hm)]
    rw [branch, branch, Layout.append_congr hallows]
    cases happend : l.append w move.1 move.2 with
    | error fault => rfl
    | ok next =>
      obtain rfl := eq_extend_of_mem_moves hw (hmoves ▸ hm) happend
      rw [Run.attempt_ok, Run.attempt_ok, ih move hm]

end Enumeration

open Enumeration

variable {v w : Variant}

/-- Of two valid variants that agree on the limit, the capability width and the search step, the
one whose widths and gaps are among those of the other finds only layouts that the other one finds
too. If they have the same widths and gaps, in whatever order and however often, their layouts are
the same list. -/
theorem enumerate_depends_on_sets (hv : v.defect? = none) (hw : w.defect? = none)
    (hlimit : v.byteLimit = w.byteLimit) (hcapability : v.capabilityWidth = w.capabilityWidth)
    (hstep : v.recursionStep = w.recursionStep) :
    ∃ ls ks, enumerate v = .ok ls ∧ enumerate w = .ok ks ∧
      (v.intSizes ⊆ w.intSizes → v.paddingAmounts ⊆ w.paddingAmounts → ls ⊆ ks) ∧
      ((∀ width, width ∈ v.intSizes ↔ width ∈ w.intSizes) →
        (∀ gap, gap ∈ v.paddingAmounts ↔ gap ∈ w.paddingAmounts) → ls = ks) := by
  have hv := Variant.defect?_eq_none_iff.mp hv
  have hw := Variant.defect?_eq_none_iff.mp hw
  have h : v.Comparable w := ⟨hlimit, hcapability, hstep⟩
  have h' : w.Comparable v := ⟨hlimit.symm, hcapability.symm, hstep.symm⟩
  have hsearch : search v .empty = search w .empty :=
    search_congr h hv.searchable.toMoving hw.searchable.toMoving .empty
  obtain ⟨ls, hls, hsorted, hmem⟩ := exists_enumerate hv
  obtain ⟨ks, hks, hsorted', hmem'⟩ := exists_enumerate hw
  refine ⟨ls, ks, hls, hks, ?_, ?_⟩
  · intro hints hgaps l hl
    rw [hmem']
    rw [hmem, hsearch] at hl
    exact hl.imp_left (mem_recorded_grid_of_subset h hv hw hints hgaps)
  · intro hints hgaps
    apply Layout.eq_of_pairwise_precedes hsorted hsorted'
    intro l
    rw [hmem, hmem', hsearch]
    have hforth := mem_recorded_grid_of_subset (k := l) h hv hw (fun n => (hints n).mp)
      fun n => (hgaps n).mp
    have hback := mem_recorded_grid_of_subset (k := l) h' hw hv (fun n => (hints n).mpr)
      fun n => (hgaps n).mpr
    exact or_congr_left ⟨hforth, hback⟩

/-- Some widths and no gaps give fewer layouts than all of them. Another name, another order and
repetitions give the same. -/
theorem enumerate_filc_depends_on_sets :
    let fewer : Variant := { Variant.filc with intSizes := [8, 4, 1], paddingAmounts := [0] }
    let shuffled : Variant := { Variant.filc with
      name := "shuffled", intSizes := [8, 2, 4, 8, 1], paddingAmounts := [7, 5, 1, 0, 8, 0] }
    (∃ ls ks, enumerate fewer = .ok ls ∧ enumerate .filc = .ok ks ∧ ls ⊆ ks) ∧
      ∃ ls, enumerate shuffled = .ok ls ∧ enumerate .filc = .ok ls := by
  intro fewer shuffled
  constructor
  · obtain ⟨ls, ks, hls, hks, hsubset, _⟩ :=
      enumerate_depends_on_sets (v := fewer) (w := .filc) (by decide) (by decide) rfl rfl rfl
    exact ⟨ls, ks, hls, hks, hsubset (by decide) (by decide)⟩
  · obtain ⟨ls, ks, hls, hks, _, hsame⟩ :=
      enumerate_depends_on_sets (v := shuffled) (w := .filc) (by decide) (by decide) rfl rfl rfl
    have hints : ∀ width, width ∈ shuffled.intSizes ↔ width ∈ Variant.filc.intSizes := by
      simp only [shuffled, Variant.filc, List.mem_cons, List.not_mem_nil, or_false]
      omega
    have hgaps : ∀ gap, gap ∈ shuffled.paddingAmounts ↔ gap ∈ Variant.filc.paddingAmounts := by
      simp only [shuffled, Variant.filc, List.mem_cons, List.not_mem_nil, or_false]
      omega
    obtain rfl := hsame hints hgaps
    exact ⟨ls, hls, hks⟩

end CapFixture
