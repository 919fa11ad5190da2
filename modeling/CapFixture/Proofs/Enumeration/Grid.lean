import CapFixture.Enumeration.Grid
import CapFixture.Proofs.Enumeration.Run
import CapFixture.Proofs.Variant.Validity

/-!
# What the grid finds

Where every integer width is positive, and words hold the ends of all layouts on the way, the grid
meets no fault and records one layout for each width, each gap and each start. If it fails, an
alternation has made a layout whose end no word holds.

## Main definitions

- `Enumeration.Alternates`, `Variant.Fillable` — what the grid needs of a variant
- `Enumeration.Fills` — the layouts that one alternation of integers and gaps goes through
- `Enumeration.RoundsOverrun`, `Enumeration.GridOverruns` — an alternation makes a layout whose end
  no word holds
-/

namespace CapFixture

variable {v : Variant} {width gap : Nat} {l wider next k : Layout}

namespace Enumeration

/-- Integers of the width can alternate with the gap: the variant admits them, and words hold the
ends of the layouts. -/
structure Alternates (v : Variant) (width gap : Nat) : Prop where
  mem : width ∈ v.intSizes
  pos : 0 < width
  room : v.byteLimit + 2 * width + gap ≤ wordSize

/-- From the one layout the alternation of integers and gaps comes past the other, after a gap or
between an integer and its gap. -/
inductive Fills (v : Variant) (width gap : Nat) : Layout → Layout → Prop
  | here (l : Layout) : Fills v width gap l l
  | int {l wider : Layout} (hl : l.total ≤ v.byteLimit)
      (hw : l.append v .int width = .ok wider) : Fills v width gap l wider
  | round {l wider next k : Layout} (hl : l.total ≤ v.byteLimit)
      (hw : l.append v .int width = .ok wider) (hn : wider.append v .padding gap = .ok next)
      (hf : Fills v width gap next k) : Fills v width gap l k

/-- The layouts at which an alternation with this gap starts. -/
inductive Start (v : Variant) (gap : Nat) : Layout → Prop
  | empty : Start v gap .empty
  | lead {l : Layout} (hl : Layout.empty.append v .padding gap = .ok l) : Start v gap l

/-! ### One alternation -/

/-- One round, with everything that may fail in it. -/
theorem fill_eq (v : Variant) (width gap : Nat) (l : Layout) :
    fill v width gap l = l.wordTotal.bind fun total =>
      if total ≤ v.byteLimit then
        (l.append v .int width).bind fun wider =>
          (wider.append v .padding gap).bind (fill v width gap)
      else .ok l := by
  rw [fill]
  split
  · next fault htotal => rw [htotal, Except.bind]
  · next total htotal =>
    rw [htotal, Except.bind]
    refine if_congr Iff.rfl ?_ rfl
    split
    · next fault hwider => rw [hwider, Except.bind]
    · next wider hwider =>
      rw [hwider, Except.bind]
      split
      · next fault hnext => rw [hnext, Except.bind]
      · next next hnext => rw [hnext, Except.bind]

theorem fill_of_large (h : wordSize ≤ l.total) (width gap : Nat) :
    fill v width gap l = .error (.overflow .add) := by
  rw [fill_eq, l.wordTotal_eq, Arithmetic.checked_of_le h, Except.bind]

theorem fill_past (hfits : l.total < wordSize) (h : v.byteLimit < l.total) (width gap : Nat) :
    fill v width gap l = .ok l := by
  rw [fill_eq, l.wordTotal_eq, Arithmetic.checked_of_lt hfits, Except.bind,
    if_neg (Nat.not_le_of_lt h)]

/-- Within the limit an integer and a gap are appended, and then the alternation goes on. -/
theorem fill_eq_bind (hfits : l.total < wordSize) (hl : l.total ≤ v.byteLimit) :
    fill v width gap l = (l.append v .int width).bind fun wider =>
      (wider.append v .padding gap).bind (fill v width gap) := by
  rw [fill_eq, l.wordTotal_eq, Arithmetic.checked_of_lt hfits, Except.bind, if_pos hl]

/-- One round of the alternation, from a layout that ends within the limit. -/
theorem fill_within (hfits : l.total < wordSize) (hl : l.total ≤ v.byteLimit)
    (hw : l.append v .int width = .ok wider) (hn : wider.append v .padding gap = .ok next) :
    fill v width gap l = fill v width gap next := by
  rw [fill_eq_bind hfits hl, hw, Except.bind, hn, Except.bind]

/-- From a layout that ends within the limit an integer and then a gap can be appended. -/
theorem Alternates.exists_round (hc : Alternates v width gap) (hl : l.total ≤ v.byteLimit) :
    ∃ wider next, l.append v .int width = .ok wider ∧ wider.append v .padding gap = .ok next ∧
      l.total < next.total ∧ next.total < wordSize := by
  have hroom := hc.room
  have hpos := hc.pos
  have hoffset := l.offsetFor_lt .int hpos
  have hwider := Layout.append_of_allows (l := l) hpos
    (by simpa [Variant.allows] using hc.mem : v.allows .int width = true) (by omega)
  have hadvance := Layout.total_lt_of_append hwider (by decide)
  have htotal := l.total_extend_lt .int hpos
  obtain ⟨next, hnext, hgap⟩ := (l.extend .int width).exists_append_padding v (by omega) gap
  exact ⟨_, next, hwider, hnext, by omega, by omega⟩

/-- Induction along an alternation, whose appends cannot fail. -/
theorem alternation_induction (hc : Alternates v width gap) {motive : Layout → Prop}
    (past : ∀ l : Layout, l.total < wordSize → v.byteLimit < l.total → motive l)
    (round : ∀ l wider next : Layout, l.total < wordSize → l.total ≤ v.byteLimit →
      l.append v .int width = .ok wider → wider.append v .padding gap = .ok next →
      motive next → motive l)
    (l : Layout) (hl : l.total < wordSize) : motive l := by
  induction hleft : v.byteLimit + 1 - l.total using Nat.strongRecOn generalizing l with
  | _ left ih =>
    rcases Nat.lt_or_ge v.byteLimit l.total with hpast | hwithin
    · exact past l hl hpast
    · obtain ⟨wider, next, hwider, hnext, hadvance, hfits⟩ := hc.exists_round hwithin
      exact round l wider next hl hwithin hwider hnext (ih _ (by omega) next hfits rfl)

/-- An alternation ends with the first layout that ends past the limit. -/
theorem exists_fill (hc : Alternates v width gap) (hl : l.total < wordSize) :
    ∃ k, fill v width gap l = .ok k ∧ Fills v width gap l k ∧ v.byteLimit < k.total := by
  refine alternation_induction hc (motive := fun l => ∃ k, fill v width gap l = .ok k ∧
    Fills v width gap l k ∧ v.byteLimit < k.total) ?past ?round l hl
  case past =>
    intro l hfits hpast
    exact ⟨l, fill_past hfits hpast width gap, .here l, hpast⟩
  case round =>
    rintro l wider next hfits hl hwider hnext ⟨k, hk, hfills, hpast⟩
    exact ⟨k, by rw [fill_within hfits hl hwider hnext, hk], .round hl hwider hnext hfills, hpast⟩

/-! ### Words that are too small -/

/-- The end of a round that starts with a layout of this end, behind an integer and a gap. -/
def roundEnd (width gap total : Nat) : Nat :=
  (total + (width - 1)) / width * width + width + gap

/-- In an alternation that starts with a layout of this end, some round starts within the limit and
has an end that no word holds, or the layout has. -/
inductive RoundsOverrun (v : Variant) (width gap : Nat) : Nat → Prop
  | here {total : Nat} (h : wordSize ≤ total) : RoundsOverrun v width gap total
  | round {total : Nat} (hl : total ≤ v.byteLimit)
      (h : RoundsOverrun v width gap (roundEnd width gap total)) : RoundsOverrun v width gap total

theorem total_extend_int (l : Layout) (hpos : 0 < width) (gap : Nat) :
    (l.extend .int width).total + gap = roundEnd width gap l.total := by
  rw [Layout.total_extend, Layout.offsetFor, if_neg (by decide), Layout.nextOffset,
    if_neg (Nat.ne_of_gt hpos), roundEnd]

/-- A round goes on with the alternation, or no word holds its end. -/
theorem fill_round_cases (hw : width ∈ v.intSizes) (hpos : 0 < width) (gap : Nat)
    (hfits : l.total < wordSize) (hl : l.total ≤ v.byteLimit) :
    (∃ next : Layout, l.total < next.total ∧ next.total = roundEnd width gap l.total ∧
      fill v width gap l = fill v width gap next) ∨
    (wordSize ≤ roundEnd width gap l.total ∧
      ∃ operation, fill v width gap l = .error (.overflow operation)) := by
  have hround := total_extend_int l hpos gap
  have hadvance := l.total_add_le_total_extend .int width
  have hallows : v.allows .int width = true := by simpa [Variant.allows] using hw
  rcases Nat.lt_or_ge (l.offsetFor .int width) wordSize with hoffset | hoffset
  · have hwider := Layout.append_of_allows hpos hallows hoffset
    by_cases hgap : (l.extend .int width).total < wordSize ∨ gap = 0
    · obtain ⟨next, hnext, htotal⟩ : ∃ next,
          (l.extend .int width).append v .padding gap = .ok next ∧
            next.total = (l.extend .int width).total + gap := by
        rcases hgap with hlt | rfl
        · exact (l.extend .int width).exists_append_padding v hlt gap
        · exact ⟨_, if_pos ⟨rfl, rfl⟩, rfl⟩
      exact .inl ⟨next, by omega, by omega, fill_within hfits hl hwider hnext⟩
    · obtain ⟨hlarge, hsome⟩ := not_or.mp hgap
      have hsome : ¬ (Kind.padding = .padding ∧ gap = 0) := fun h => hsome h.2
      obtain ⟨operation, happend⟩ :=
        Layout.append_of_le (v := v) hsome (Nat.le_of_not_lt hlarge)
      refine .inr ⟨by omega, operation, ?_⟩
      rw [fill_eq_bind hfits hl, hwider, Except.bind, happend, Except.bind]
  · have hsome : ¬ (Kind.int = .padding ∧ width = 0) := by simp
    obtain ⟨operation, happend⟩ := Layout.append_of_le (v := v) hsome hoffset
    refine .inr ⟨?_, operation, by rw [fill_eq_bind hfits hl, happend, Except.bind]⟩
    rw [Layout.total_extend] at hround
    omega

/-- An alternation ends, or it makes a layout whose end no word holds. -/
theorem fill_cases (hw : width ∈ v.intSizes) (hpos : 0 < width) (gap : Nat) (l : Layout) :
    ((∃ k, fill v width gap l = .ok k) ∧ ¬ RoundsOverrun v width gap l.total) ∨
      (∃ operation, fill v width gap l = .error (.overflow operation)) ∧
        RoundsOverrun v width gap l.total := by
  induction hleft : v.byteLimit + 1 - l.total using Nat.strongRecOn generalizing l with
  | _ left ih =>
    rcases Nat.lt_or_ge l.total wordSize with hfits | hlarge
    · rcases Nat.lt_or_ge v.byteLimit l.total with hpast | hwithin
      · refine .inl ⟨⟨l, fill_past hfits hpast width gap⟩, fun hoverrun => ?_⟩
        cases hoverrun with
        | here hlarge => exact Nat.not_lt_of_le hlarge hfits
        | round hl => exact Nat.not_lt_of_le hl hpast
      · rcases fill_round_cases hw hpos gap hfits hwithin with
          ⟨next, hadvance, htotal, hnext⟩ | ⟨hlarge, hfault⟩
        · rw [hnext]
          rcases ih _ (by omega) next rfl with ⟨hok, hnot⟩ | ⟨hfault, hoverrun⟩
          · refine .inl ⟨hok, fun hoverrun => hnot ?_⟩
            cases hoverrun with
            | here hlarge => exact absurd hfits (Nat.not_lt_of_le hlarge)
            | round _ h => rwa [htotal]
          · exact .inr ⟨hfault, .round hwithin (htotal ▸ hoverrun)⟩
        · exact .inr ⟨hfault, .round hwithin (.here hlarge)⟩
    · exact .inr ⟨⟨.add, fill_of_large hlarge width gap⟩, .here hlarge⟩

/-! ### The grid -/

private theorem mem_starts {lead : Layout} (hl : Layout.empty.append v .padding gap = .ok lead) :
    l ∈ [Layout.empty, lead] ↔ Start v gap l := by
  rw [List.mem_pair]
  constructor
  · rintro (rfl | rfl)
    · exact .empty
    · exact .lead hl
  · intro h
    cases h with
    | empty => exact .inl rfl
    | lead h => exact .inr (Except.ok.inj (h.symm.trans hl))

/-- The part of the grid with one width and one gap. -/
def cell (v : Variant) (width gap : Nat) : Run :=
  Run.attempt (Layout.empty.append v .padding gap) fun lead =>
    [Layout.empty, lead] |> Run.each fun start =>
      Run.attempt (fill v width gap start) Run.record

/-- Some alternation of the grid makes a layout whose end no word holds. -/
def GridOverruns (v : Variant) : Prop :=
  ∃ width ∈ v.intSizes, ∃ gap ∈ v.paddingAmounts,
    RoundsOverrun v width gap 0 ∨ RoundsOverrun v width gap gap

theorem overflowsIff_attempt_fill (hw : width ∈ v.intSizes) (hpos : 0 < width) (gap : Nat)
    (l : Layout) : (Run.attempt (fill v width gap l) Run.record).OverflowsIff
      (RoundsOverrun v width gap l.total) := by
  rcases fill_cases hw hpos gap l with ⟨⟨k, hk⟩, hnot⟩ | ⟨⟨operation, hfault⟩, hoverrun⟩
  · rw [hk, Run.attempt_ok]
    exact .inl ⟨Run.fault_record k, hnot⟩
  · rw [hfault]
    exact .inr ⟨⟨operation, rfl⟩, hoverrun⟩

/-- Where no width is zero, the grid fails exactly if one of its alternations makes a layout whose
end no word holds. -/
theorem overflowsIff_grid (hpos : ∀ width ∈ v.intSizes, 0 < width) :
    (grid v).OverflowsIff (GridOverruns v) := by
  refine Run.OverflowsIff.each fun width hw => Run.OverflowsIff.each fun gap _ => ?_
  obtain ⟨lead, hlead, htotal⟩ := Layout.empty.exists_append_padding v (by decide) gap
  have hparts : ([Layout.empty, lead] |> Run.each fun start =>
      Run.attempt (fill v width gap start) Run.record).OverflowsIff _ :=
    Run.OverflowsIff.each fun start _ => overflowsIff_attempt_fill hw (hpos width hw) gap start
  have htotal : lead.total = gap := htotal.trans (Nat.zero_add gap)
  have hempty : Layout.empty.total = 0 := rfl
  rw [hlead, Run.attempt_ok]
  simpa only [List.mem_cons, List.not_mem_nil, or_false, exists_eq_or_imp, exists_eq_left,
    htotal, hempty] using hparts

theorem Start.total_lt (h : Start v gap l) (hgap : gap < wordSize) : l.total < wordSize := by
  cases h with
  | empty => decide
  | lead hl =>
    rw [Layout.total_of_append_padding hl]
    show 0 + gap < wordSize
    omega

theorem exists_lead (v : Variant) (gap : Nat) :
    ∃ lead, Layout.empty.append v .padding gap = .ok lead := by
  obtain ⟨lead, hlead, _⟩ := Layout.empty.exists_append_padding v (by decide) gap
  exact ⟨lead, hlead⟩

section
variable (hc : Alternates v width gap)

include hc

theorem Alternates.gap_lt : gap < wordSize := by
  have hroom := hc.room
  have hpos := hc.pos
  omega

theorem fault_attempt_fill (hl : l.total < wordSize) :
    (Run.attempt (fill v width gap l) Run.record).fault = none := by
  obtain ⟨k, hk, _⟩ := exists_fill hc hl
  rw [hk, Run.attempt_ok, Run.fault_record]

theorem fault_cell : (cell v width gap).fault = none := by
  obtain ⟨lead, hlead⟩ := exists_lead v gap
  rw [cell, hlead, Run.attempt_ok]
  exact Run.fault_each fun start hstart =>
    fault_attempt_fill hc (((mem_starts hlead).mp hstart).total_lt hc.gap_lt)

theorem mem_recorded_cell :
    k ∈ (cell v width gap).recorded ↔
      ∃ start last, Start v gap start ∧ fill v width gap start = .ok last ∧
        last.possibility? = some k := by
  obtain ⟨lead, hlead⟩ := exists_lead v gap
  have hfault : ∀ start ∈ [Layout.empty, lead],
      (Run.attempt (fill v width gap start) Run.record).fault = none := fun start hstart =>
    fault_attempt_fill hc (((mem_starts hlead).mp hstart).total_lt hc.gap_lt)
  rw [cell, hlead, Run.attempt_ok, Run.recorded_each hfault, List.mem_flatMap]
  constructor
  · rintro ⟨start, hstart, hk⟩
    have hstart := (mem_starts hlead).mp hstart
    obtain ⟨last, hlast, _⟩ := exists_fill hc (hstart.total_lt hc.gap_lt)
    rw [hlast, Run.attempt_ok, Run.mem_record] at hk
    exact ⟨start, last, hstart, hlast, hk⟩
  · rintro ⟨start, last, hstart, hlast, hk⟩
    refine ⟨start, (mem_starts hlead).mpr hstart, ?_⟩
    rwa [hlast, Run.attempt_ok, Run.mem_record]

end

end Enumeration

/-- Integers of every width can alternate with every gap. -/
structure Variant.Fillable (v : Variant) : Prop where
  int_pos : ∀ width ∈ v.intSizes, 0 < width
  room : ∀ width ∈ v.intSizes, ∀ gap ∈ v.paddingAmounts,
    v.byteLimit + 2 * width + gap ≤ wordSize

theorem Variant.Fillable.alternates (hv : v.Fillable) (hw : width ∈ v.intSizes)
    (hg : gap ∈ v.paddingAmounts) : Enumeration.Alternates v width gap :=
  ⟨hw, hv.int_pos width hw, hv.room width hw gap hg⟩

theorem Variant.Valid.fillable (h : v.Valid) : v.Fillable where
  int_pos := fun _ => h.int_pos
  room := by
    intro width hw gap hg
    have hlimit := h.limit_le
    have hwidth := h.int_le hw
    have hgap := h.padding_le gap hg
    unfold maxByteLimit at hlimit
    unfold wordSize
    omega

namespace Enumeration

theorem fault_grid (hv : v.Fillable) : (grid v).fault = none :=
  Run.fault_each fun _ hw => Run.fault_each fun _ hg => fault_cell (hv.alternates hw hg)

theorem not_gridOverruns (hv : v.Fillable) : ¬ GridOverruns v := by
  rcases overflowsIff_grid hv.int_pos with ⟨_, hnot⟩ | ⟨⟨operation, hfault⟩, _⟩
  · exact hnot
  · cases (fault_grid hv).symm.trans hfault

/-- The grid records the last layouts of its alternations, and nothing else. -/
theorem mem_recorded_grid (hv : v.Fillable) :
    k ∈ (grid v).recorded ↔
      ∃ width ∈ v.intSizes, ∃ gap ∈ v.paddingAmounts, ∃ start last, Start v gap start ∧
        fill v width gap start = .ok last ∧ last.possibility? = some k := by
  have hgrid : grid v = (v.intSizes |> Run.each fun width =>
      v.paddingAmounts |> Run.each fun gap => cell v width gap) := rfl
  rw [hgrid, Run.recorded_each fun width hw =>
    Run.fault_each fun gap hg => fault_cell (hv.alternates hw hg), List.mem_flatMap]
  refine exists_congr fun width => and_congr_right fun hw => ?_
  rw [Run.recorded_each fun gap hg => fault_cell (hv.alternates hw hg), List.mem_flatMap]
  exact exists_congr fun gap => and_congr_right fun hg =>
    mem_recorded_cell (hv.alternates hw hg)

end Enumeration

end CapFixture
