import Mathlib.Algebra.Order.Floor.Div
import CapFixture.Proofs.Enumeration.Operations

/-!
# The layouts of the grid

The offsets of one alternation form an arithmetic progression. An integer starts at a multiple of
its width, so between two integers lies their gap rounded up to whole widths. A round is left out
if the gap before it, as it is, ends past the limit, so the last integer may end past it.

## Main definitions

- `Enumeration.gridSpacing` — what lies between two integers
- `Enumeration.gridOffset` — where an integer starts
- `Enumeration.gridLayout` — the integers of one alternation
-/

namespace CapFixture

namespace Layout

variable {v : Variant} {l k : Layout} {kind : Kind} {size : Nat}

/-! ### Appending -/

theorem nextOffset_eq_ceilDiv (l : Layout) (hs : 0 < size) :
    l.nextOffset size = (l.total ⌈/⌉ size) * size := by
  rw [nextOffset, if_neg (Nat.ne_of_gt hs), Nat.ceilDiv_eq_add_pred_div, Nat.add_sub_assoc hs]

theorem stripPadding_append_padding (h : l.append v .padding size = .ok k) :
    k.stripPadding = l.stripPadding := by
  rcases append_cases h with ⟨_, _, rfl⟩ | ⟨_, _, rfl⟩
  · rfl
  · exact l.stripPadding_extend_padding size

theorem stripPadding_extend_int (l : Layout) (size : Nat) :
    (l.extend .int size).stripPadding.fields =
      l.stripPadding.fields ++ [⟨l.nextOffset size, .int, size⟩] := by
  simp [extend, stripPadding, without, offsetFor]

end Layout

namespace Enumeration

variable {v : Variant} {width gap lead k n : Nat} {l wider next last : Layout}

/-! ### Progressions -/

/-- The gap between two integers, rounded up to whole widths. -/
def gridSpacing (width gap : Nat) : Nat := width * (gap ⌈/⌉ width)

/-- Where the integer of a round starts, after a leading gap if `lead` is one. -/
def gridOffset (width gap lead k : Nat) : Nat :=
  lead * gridSpacing width gap + k * (width + gridSpacing width gap)

/-- How many rounds start within the limit. -/
def gridRounds (v : Variant) (width gap lead : Nat) : Nat :=
  (v.byteLimit + gridSpacing width gap - (lead * gridSpacing width gap + gap)) /
    (width + gridSpacing width gap) + 1

/-- The integers of the first rounds. -/
def gridFields (width gap lead n : Nat) : List Field :=
  (List.range n).map fun k => ⟨gridOffset width gap lead k, .int, width⟩

/-- The integers of all rounds that start within the limit. -/
def gridLayout (v : Variant) (width gap lead : Nat) : Layout :=
  ⟨gridFields width gap lead (gridRounds v width gap lead)⟩

theorem dvd_gridOffset (width gap lead k : Nat) : width ∣ gridOffset width gap lead k := by
  have hspacing : width ∣ gridSpacing width gap := Nat.dvd_mul_right _ _
  exact Nat.dvd_add (Nat.dvd_mul_left_of_dvd hspacing _)
    (Nat.dvd_mul_left_of_dvd (Nat.dvd_add (Nat.dvd_refl _) hspacing) _)

theorem gridOffset_succ (width gap lead k : Nat) :
    gridOffset width gap lead (k + 1) =
      gridOffset width gap lead k + width + gridSpacing width gap := by
  rw [gridOffset, gridOffset, Nat.succ_mul]
  omega

/-- There is always a first round, and each later one if the gap before it ends within the limit. -/
theorem lt_gridRounds_iff (hs : 0 < width) :
    k < gridRounds v width gap lead ↔
      k = 0 ∨ 1 ≤ k ∧ gridOffset width gap lead (k - 1) + width + gap ≤ v.byteLimit := by
  cases k with
  | zero => simp [gridRounds]
  | succ k =>
    rw [gridRounds, Nat.add_lt_add_iff_right, Nat.lt_iff_add_one_le,
      Nat.le_div_iff_mul_le (by omega), Nat.succ_mul, Nat.add_sub_cancel, gridOffset]
    omega

theorem gridFields_succ (width gap lead n : Nat) :
    gridFields width gap lead (n + 1) =
      gridFields width gap lead n ++ [⟨gridOffset width gap lead n, .int, width⟩] := by
  simp [gridFields, List.range_succ]

theorem gridOffset_add_le {i j : Nat} (h : i < j) :
    gridOffset width gap lead i + width ≤ gridOffset width gap lead j := by
  have hrounds := Nat.mul_le_mul_right (width + gridSpacing width gap) (Nat.succ_le_of_lt h)
  rw [Nat.succ_mul] at hrounds
  unfold gridOffset
  omega

theorem disjoint_gridFields (width gap lead n : Nat) :
    (gridFields width gap lead n).Pairwise fun f g => f.stop ≤ g.offset := by
  rw [gridFields, List.pairwise_map]
  exact List.pairwise_lt_range.imp gridOffset_add_le

theorem mem_gridLayout (hs : 0 < width) {f : Field} :
    f ∈ (gridLayout v width gap lead).fields ↔
      ∃ k, (k = 0 ∨ 1 ≤ k ∧ gridOffset width gap lead (k - 1) + width + gap ≤ v.byteLimit) ∧
        f = ⟨gridOffset width gap lead k, .int, width⟩ := by
  simp only [gridLayout, gridFields, List.mem_map, List.mem_range, lt_gridRounds_iff hs,
    eq_comm (b := f)]

/-! ### Rounds -/

/-- What is known before the round `k` of an alternation. -/
structure AtRound (v : Variant) (width gap lead k : Nat) (l : Layout) : Prop where
  fields : l.stripPadding.fields = gridFields width gap lead k
  next : l.nextOffset width = gridOffset width gap lead k
  within : l.total ≤ v.byteLimit ↔ k < gridRounds v width gap lead
  le : k ≤ gridRounds v width gap lead

/-- The two starts of an alternation, with and without a gap that leads. -/
theorem start_iff :
    Start v gap l ↔ ∃ lead, (lead = 0 ∨ lead = 1) ∧
      Layout.empty.append v .padding (lead * gap) = .ok l := by
  constructor
  · intro h
    cases h with
    | empty => exact ⟨0, .inl rfl, by rw [Nat.zero_mul]; rfl⟩
    | lead hl => exact ⟨1, .inr rfl, by rwa [Nat.one_mul]⟩
  · rintro ⟨lead, rfl | rfl, hl⟩
    · rw [Nat.zero_mul] at hl
      obtain rfl := Except.ok.inj hl
      exact .empty
    · exact .lead (by rwa [Nat.one_mul] at hl)

theorem AtRound.start (hs : 0 < width) (hgap : gap ≤ v.byteLimit) (hlead : lead = 0 ∨ lead = 1)
    (hl : Layout.empty.append v .padding (lead * gap) = .ok l) : AtRound v width gap lead 0 l := by
  have htotal : l.total = lead * gap := by
    rw [Layout.total_of_append_padding hl]
    exact Nat.zero_add _
  refine ⟨?_, ?_, ?_, Nat.zero_le _⟩
  · rw [Layout.stripPadding_append_padding hl]
    rfl
  · rw [l.nextOffset_eq_ceilDiv hs, htotal, gridOffset, gridSpacing, Nat.zero_mul, Nat.add_zero]
    rcases hlead with rfl | rfl
    · simp
    · rw [Nat.one_mul, Nat.one_mul, Nat.mul_comm]
  · refine iff_of_true ?_ ((lt_gridRounds_iff hs).mpr (.inl rfl))
    rw [htotal]
    rcases hlead with rfl | rfl <;> omega

/-- A round appends one integer, and the gap after it is rounded up before the next one. -/
theorem AtRound.round (hs : 0 < width) (h : AtRound v width gap lead k l)
    (hl : l.total ≤ v.byteLimit) (hw : l.append v .int width = .ok wider)
    (hn : wider.append v .padding gap = .ok next) : AtRound v width gap lead (k + 1) next := by
  obtain rfl : wider = l.extend .int width := by
    rcases Layout.append_cases hw with ⟨hkind, _⟩ | ⟨_, _, rfl⟩
    · cases hkind
    · rfl
  have htotal : next.total = gridOffset width gap lead k + width + gap := by
    rw [Layout.total_of_append_padding hn, Layout.total_extend, Layout.offsetFor,
      if_neg (by decide), h.next]
  refine ⟨?_, ?_, ?_, h.within.mp hl⟩
  · rw [Layout.stripPadding_append_padding hn, Layout.stripPadding_extend_int, h.fields, h.next,
      gridFields_succ]
  · obtain ⟨widths, hwidths⟩ := Nat.dvd_add (dvd_gridOffset width gap lead k) (Nat.dvd_refl width)
    have hround : (width * widths + gap) ⌈/⌉ width = widths + gap ⌈/⌉ width := by
      rw [Nat.ceilDiv_eq_add_pred_div, Nat.ceilDiv_eq_add_pred_div, Nat.add_assoc,
        Nat.add_sub_assoc (by omega), Nat.mul_add_div hs]
    rw [next.nextOffset_eq_ceilDiv hs, htotal, gridOffset_succ, hwidths, gridSpacing, hround,
      Nat.mul_comm, Nat.mul_add]
  · rw [htotal, lt_gridRounds_iff hs]
    simp

/-- An alternation goes on for all rounds that start within the limit. -/
theorem AtRound.fill (hc : Alternates v width gap) (hfits : l.total < wordSize)
    (h : AtRound v width gap lead k l) (hlast : fill v width gap l = .ok last) :
    last.stripPadding = gridLayout v width gap lead := by
  revert k
  refine alternation_induction hc (motive := fun l => Enumeration.fill v width gap l = .ok last →
    ∀ {k}, AtRound v width gap lead k l → last.stripPadding = gridLayout v width gap lead)
      ?past ?round l hfits hlast
  case past =>
    intro l hfits hpast hlast k h
    rw [fill_past hfits hpast] at hlast
    obtain rfl := Except.ok.inj hlast
    have hrounds : k = gridRounds v width gap lead := by
      have hle := h.le
      have hwithin := h.within
      omega
    rw [gridLayout, ← hrounds, ← h.fields]
  case round =>
    intro l wider next hfits hl hwider hnext ih hlast k h
    rw [fill_within hfits hl hwider hnext] at hlast
    exact ih hlast (h.round hc.pos hl hwider hnext)

/-! ### What the grid collects -/

/-- One width and one gap give one layout for each of the two starts. -/
theorem mem_cell_iff (hc : Alternates v width gap) (hgap : gap ≤ v.byteLimit) :
    (∃ start last, Start v gap start ∧ fill v width gap start = .ok last ∧
      last.possibility? = some l) ↔
        ∃ lead, (lead = 0 ∨ lead = 1) ∧ l = gridLayout v width gap lead := by
  have hnonempty : ∀ lead, (gridLayout v width gap lead).fields ≠ [] := by
    intro lead
    simp [gridLayout, gridFields, gridRounds]
  constructor
  · rintro ⟨start, last, hstart, hlast, hl⟩
    obtain ⟨lead, hlead, happend⟩ := start_iff.mp hstart
    have hfits := hstart.total_lt hc.gap_lt
    have hlayout := (AtRound.start hc.pos hgap hlead happend).fill hc hfits hlast
    exact ⟨lead, hlead, by rw [← hlayout, (Layout.possibility?_eq_some_iff.mp hl).1]⟩
  · rintro ⟨lead, hlead, rfl⟩
    obtain ⟨start, happend, _⟩ :=
      Layout.empty.exists_append_padding v (by decide) (lead * gap)
    have hstart := start_iff.mpr ⟨lead, hlead, happend⟩
    have hfits := hstart.total_lt hc.gap_lt
    obtain ⟨last, hlast, _⟩ := exists_fill hc hfits
    have hlayout := (AtRound.start hc.pos hgap hlead happend).fill hc hfits hlast
    exact ⟨start, last, hstart, hlast,
      Layout.possibility?_eq_some_iff.mpr ⟨hlayout, hnonempty lead⟩⟩

/-- The grid of a valid variant finishes. From nothing it collects one layout for each width, each
gap and each of the two starts, and no others. Its integers start one spacing after another: the
first one always, and a later one if the gap before it ends within the limit. -/
theorem grid_collects_progressions (hv : v.defect? = none) :
    ∃ collected, Operation.grid.perform v ∅ = (.finished, collected) ∧
      (∀ l, l ∈ collected ↔ ∃ width ∈ v.intSizes, ∃ gap ∈ v.paddingAmounts, ∃ lead,
        (lead = 0 ∨ lead = 1) ∧ l = gridLayout v width gap lead) ∧
      ∀ width ∈ v.intSizes, ∀ gap ∈ v.paddingAmounts, ∀ lead,
        (gridLayout v width gap lead).fields.Pairwise (fun f g => f.stop ≤ g.offset) ∧
        ∀ f, f ∈ (gridLayout v width gap lead).fields ↔ ∃ k,
          (k = 0 ∨ 1 ≤ k ∧ gridOffset width gap lead (k - 1) + width + gap ≤ v.byteLimit) ∧
            f = ⟨gridOffset width gap lead k, .int, width⟩ := by
  have hv := Variant.defect?_eq_none_iff.mp hv
  refine ⟨(grid v).collectInto ∅, ?_, fun l => ?_, fun width hw gap _ lead =>
    ⟨disjoint_gridFields width gap lead _, fun f => mem_gridLayout (hv.int_pos hw)⟩⟩
  · rw [perform_grid, fault_grid hv.fillable]
  · rw [Run.mem_collectInto, mem_recorded_grid hv.fillable]
    simp only [Std.ExtTreeSet.not_mem_empty, false_or]
    refine exists_congr fun width => and_congr_right fun hw => exists_congr fun gap =>
      and_congr_right fun hgap => ?_
    exact mem_cell_iff (hv.fillable.alternates hw hgap) (hv.padding_le gap hgap)

/-- Five bytes before each integer push it to the next multiple of its width. The last integer
starts at the limit and ends past it. -/
theorem grid_filc_collects :
    ∃ collected, Operation.grid.perform .filc ∅ = (.finished, collected) ∧
      ⟨[⟨8, .int, 8⟩, ⟨24, .int, 8⟩]⟩ ∈ collected := by
  obtain ⟨collected, hgrid, hmem, _⟩ :=
    grid_collects_progressions (show Variant.filc.defect? = none by decide)
  exact ⟨collected, hgrid, (hmem _).mpr ⟨8, by decide, 5, by decide, 1, .inr rfl, by decide⟩⟩

end Enumeration

end CapFixture
