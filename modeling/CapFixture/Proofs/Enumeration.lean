import CapFixture.Enumeration
import CapFixture.Proofs.Enumeration.Grid
import CapFixture.Proofs.Enumeration.Search

/-!
# What the enumeration yields

For a valid variant the enumeration succeeds. Its layouts are in order and without padding, and
each of them is what is left of a layout that one of the strategies has built.

## Main definitions

- `Enumeration.Visited` — the layouts that the strategies build on their way
-/

namespace CapFixture

variable {v : Variant} {l k : Layout}

namespace Enumeration

/-- The layouts that the grid and the search have in hand at some time. -/
inductive Visited (v : Variant) : Layout → Prop
  | grid {width gap : Nat} {start l : Layout} (hw : width ∈ v.intSizes)
      (hg : gap ∈ v.paddingAmounts) (hs : Start v gap start) (hf : Fills v width gap start l) :
      Visited v l
  | search {word : List (Kind × Nat)} {l : Layout} (hw : Walk v .empty word l) : Visited v l

/-! ### What every visited layout keeps -/

theorem Start.bounded {gap : Nat} (h : Start v gap l) : Layout.Bounded v l := by
  cases h with
  | empty => exact Layout.bounded_empty v
  | lead hl => exact (Layout.bounded_empty v).append (.inl rfl) hl

theorem Fills.bounded {width gap : Nat} (h : Fills v width gap l k) (hl : Layout.Bounded v l) :
    Layout.Bounded v k := by
  induction h with
  | here => exact hl
  | int hwithin hwider => exact hl.append (.inr hwithin) hwider
  | round hwithin hwider hnext _ ih =>
    exact ih ((hl.append (.inr hwithin) hwider).append (.inl rfl) hnext)

theorem Walk.bounded {word : List (Kind × Nat)} (h : Walk v l word k)
    (hl : Layout.Bounded v l) : Layout.Bounded v k := by
  induction h with
  | stop => exact hl
  | move hwithin _ hnext _ ih => exact ih (hl.append (.inr hwithin) hnext)

theorem Visited.bounded (h : Visited v l) : Layout.Bounded v l := by
  cases h with
  | grid _ _ hstart hfills => exact hfills.bounded hstart.bounded
  | search hwalk => exact hwalk.bounded (Layout.bounded_empty v)

/-! ### How far visited layouts reach -/

/-- An integer of sixteen bytes may start right after the last byte within the limit, and a gap
as long as the limit may follow it. -/
def farthest (v : Variant) : Nat := 2 * v.byteLimit + 31

theorem Fills.total_le {width gap : Nat} (h : Fills v width gap l k) (hw : width ≤ 16)
    (hg : gap ≤ v.byteLimit) (hl : l.total ≤ farthest v) : k.total ≤ farthest v := by
  unfold farthest at hl ⊢
  -- a round starts within the limit, so the bound does not add up over the rounds
  induction h with
  | here => exact hl
  | int hwithin hwider =>
    have hint := Layout.total_le_add_of_append hwider
    omega
  | round hwithin hwider hnext _ ih =>
    have hint := Layout.total_le_add_of_append hwider
    have hgap := Layout.total_of_append_padding hnext
    exact ih (by omega)

theorem Walk.total_le (hv : v.Valid) {word : List (Kind × Nat)} (h : Walk v l word k)
    (hl : l.total ≤ v.byteLimit + 31) : k.total ≤ v.byteLimit + 31 := by
  induction h with
  | stop => exact hl
  | move hwithin hm hnext _ ih =>
    have hadvance := Layout.total_le_add_of_append hnext
    have hsize := size_le_of_mem_moves hv hm
    exact ih (by omega)

theorem Visited.total_le (hv : v.Valid) (h : Visited v l) : l.total ≤ farthest v := by
  cases h with
  | grid hw hg hstart hfills =>
    refine hfills.total_le (hv.int_le hw) (hv.padding_le _ hg) ?_
    cases hstart with
    | empty => exact Nat.zero_le _
    | lead hlead =>
      have hgap := hv.padding_le _ hg
      rw [Layout.total_of_append_padding hlead]
      show 0 + _ ≤ 2 * v.byteLimit + 31
      omega
  | search hwalk =>
    have hpast := hwalk.total_le hv (Nat.zero_le _)
    unfold farthest
    omega

theorem Visited.within (hv : v.Valid) (h : Visited v l) : l.Within (farthest v) :=
  h.bounded.within (h.total_le hv)

/-! ### What is yielded -/

theorem exists_visited_of_mem_recorded (hv : v.Valid)
    (h : k ∈ (grid v).recorded ∨ k ∈ (search v .empty).recorded) :
    ∃ l, Visited v l ∧ l.possibility? = some k := by
  rcases h with h | h
  · obtain ⟨width, hw, gap, hg, start, last, hstart, hlast, hk⟩ :=
      (mem_recorded_grid hv.fillable).mp h
    have hc := hv.fillable.alternates hw hg
    obtain ⟨last', hlast', hfills, _⟩ := exists_fill hc (hstart.total_lt hc.gap_lt)
    obtain rfl : last = last' := Except.ok.inj (hlast.symm.trans hlast')
    exact ⟨last, .grid hw hg hstart hfills, hk⟩
  · obtain ⟨word, last, hwalk, _, hk⟩ := (mem_recorded_search hv.searchable).mp h
    exact ⟨last, .search hwalk, hk⟩

end Enumeration

open Enumeration

/-- The enumeration of a valid variant yields in order what the two strategies record. -/
theorem exists_enumerate (hv : v.Valid) :
    ∃ ls, enumerate v = .ok ls ∧ ls.Pairwise Layout.Precedes ∧
      ∀ k, k ∈ ls ↔ k ∈ (grid v).recorded ∨ k ∈ (search v .empty).recorded := by
  have hgrid : (grid v).fault = none := fault_grid hv.fillable
  have hfault := fault_search hv.searchable
  refine ⟨(((grid v).andThen fun _ => search v .empty).collectInto ∅).toList, ?_, ?_, ?_⟩
  · simp only [enumerate, Run.fault_andThen hgrid, hfault]
  · exact Layout.pairwise_precedes_toList _
  · intro k
    rw [Std.ExtTreeSet.mem_toList, Run.mem_collectInto, Run.recorded_andThen hgrid,
      List.mem_append]
    simp

theorem possible_of_mem_enumerate (hv : v.Valid) {ls : List Layout}
    (hls : enumerate v = .ok ls) (hk : k ∈ ls) : Layout.Possible v k := by
  obtain ⟨ls', hls', _, hmem⟩ := exists_enumerate hv
  obtain rfl : ls = ls' := Except.ok.inj (hls.symm.trans hls')
  obtain ⟨l, hl, hpossibility⟩ := exists_visited_of_mem_recorded hv ((hmem k).mp hk)
  obtain ⟨rfl, hne⟩ := Layout.possibility?_eq_some_iff.mp hpossibility
  exact hl.bounded.possible hne

/-- The layouts of a valid variant come in strictly increasing order. None is empty or has
padding. Their fields have sizes that the variant allows, are aligned, do not reach into one
another, and start within the limit rounded up to their size. -/
theorem enumerate_increasing_well_formed (hv : v.defect? = none) :
    ∃ ls, enumerate v = .ok ls ∧ ls.Pairwise Layout.Precedes ∧
      ∀ l ∈ ls,
        l.fields ≠ [] ∧
        (∀ f ∈ l.fields, f.kind ≠ .padding ∧ v.allows f.kind f.size = true ∧
          0 < f.size ∧ f.size ∣ f.offset ∧ f.offset ≤ v.byteLimit + f.size - 1) ∧
        l.fields.Pairwise (fun f g => f.stop ≤ g.offset) ∧
        ∀ widest, (∀ kind size, kind ≠ .padding → v.allows kind size = true → size ≤ widest) →
          l.total ≤ v.byteLimit + 2 * widest - 1 := by
  have hv := Variant.defect?_eq_none_iff.mp hv
  obtain ⟨ls, hls, hsorted, _⟩ := exists_enumerate hv
  refine ⟨ls, hls, hsorted, fun l hl => ?_⟩
  have h := possible_of_mem_enumerate hv hls hl
  refine ⟨h.nonempty, fun f hf => ?_, h.disjoint, fun widest hw => ?_⟩
  · have hstart := h.starts f hf (h.solid f hf)
    exact ⟨h.solid f hf, h.allowed f hf, h.positive f hf, h.aligned f hf (h.solid f hf), by omega⟩
  · have htotal := h.total_lt hw
    omega

/-- No layout with eight byte capabilities ends past byte 39. -/
theorem enumerate_filc_increasing :
    ∃ ls, enumerate Variant.filc = .ok ls ∧ ls.Pairwise Layout.Precedes ∧
      ∀ l ∈ ls, l.fields ≠ [] ∧ l.total ≤ 39 := by
  obtain ⟨ls, hls, hsorted, hmem⟩ :=
    enumerate_increasing_well_formed (show Variant.filc.defect? = none by decide)
  refine ⟨ls, hls, hsorted, fun l hl => ⟨(hmem l hl).1, (hmem l hl).2.2.2 8 ?_⟩⟩
  intro kind size hk ha
  cases kind with
  | int =>
    simp only [Variant.allows, Variant.filc, List.contains_iff_mem, List.mem_cons,
      List.not_mem_nil, or_false] at ha
    omega
  | ptr =>
    obtain rfl : size = 8 := by simpa [Variant.allows, Variant.filc] using ha
    exact Nat.le_refl 8
  | padding => exact absurd rfl hk

end CapFixture
