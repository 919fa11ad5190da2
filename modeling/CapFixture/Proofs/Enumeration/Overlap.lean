import CapFixture.Proofs.Enumeration.Progression
import CapFixture.Proofs.Enumeration.Slots

/-!
# Where the strategies overlap

The grid puts integers as wide as the search step at multiples of the step, and so does the search
as long as it appends no capability. But the search appends integers within the limit only, while
the grid may round a gap up past it. So the search finds exactly those of these layouts in which no
integer starts past the limit.

## Main definitions

- `Enumeration.GridOfWidth` — the layouts that the grid records for one width
-/

namespace CapFixture.Enumeration

variable {v : Variant} {l last : Layout} {width gap lead n : Nat} {word : List (Kind × Nat)}
  {fields : List Field}

/-- The grid records the layout for integers of this width and one of its gaps. -/
def GridOfWidth (v : Variant) (width : Nat) (l : Layout) : Prop :=
  ∃ gap ∈ v.paddingAmounts, l ∈ (cell v width gap).recorded

/-! ### The grid at the step -/

theorem mem_grid_iff (hv : v.Valid) :
    l ∈ (grid v).recorded ↔ ∃ width ∈ v.intSizes, GridOfWidth v width l := by
  rw [mem_recorded_grid hv.fillable]
  refine exists_congr fun width => and_congr_right fun hw => exists_congr fun gap =>
    and_congr_right fun hgap => ?_
  exact (mem_recorded_cell (hv.fillable.alternates hw hgap)).symm

theorem gridOfWidth_iff (hv : v.Valid) (hw : width ∈ v.intSizes) :
    GridOfWidth v width l ↔ ∃ gap ∈ v.paddingAmounts, ∃ lead,
      (lead = 0 ∨ lead = 1) ∧ l = gridLayout v width gap lead := by
  refine exists_congr fun gap => and_congr_right fun hgap => ?_
  have hc := hv.fillable.alternates hw hgap
  rw [mem_recorded_cell hc]
  exact mem_cell_iff hc (hv.padding_le gap hgap)

/-- A layout of the grid is one of the width that its fields have, as it has a first field. -/
theorem gridOfWidth_of_size (hv : v.Valid) (hl : l ∈ (grid v).recorded)
    (hsize : ∀ f ∈ l.fields, f.size = width) : GridOfWidth v width l := by
  obtain ⟨other, hother, hfound⟩ := (mem_grid_iff hv).mp hl
  obtain ⟨gap, _, lead, _, hlayout⟩ := (gridOfWidth_iff hv hother).mp hfound
  have hfirst : (⟨gridOffset other gap lead 0, .int, other⟩ : Field) ∈ l.fields := by
    rw [hlayout, mem_gridLayout (hv.int_pos hother)]
    exact ⟨0, .inl rfl, rfl⟩
  rwa [← hsize _ hfirst]

/-- Up to a limit that is a multiple of the width, there is room to round a gap up. -/
theorem add_gridSpacing_le {start limit : Nat} (hw : 0 < width) (hstart : width ∣ start)
    (hlimit : width ∣ limit) (h : start + gap ≤ limit) :
    start + gridSpacing width gap ≤ limit := by
  obtain ⟨slot, rfl⟩ := hstart
  obtain ⟨slots, rfl⟩ := hlimit
  have hgap : gap ⌈/⌉ width ≤ slots - slot := by
    rw [ceilDiv_le_iff_le_mul hw, Nat.mul_sub]
    omega
  have hspacing : gridSpacing width gap ≤ width * (slots - slot) := Nat.mul_le_mul_left width hgap
  rw [Nat.mul_sub] at hspacing
  omega

/-- Where the limit is a multiple of the width, no integer of the grid starts past it. -/
theorem offset_le_of_mem_gridLayout (hw : 0 < width) (hlimit : width ∣ v.byteLimit)
    (hgap : gap ≤ v.byteLimit) (hlead : lead = 0 ∨ lead = 1) {f : Field}
    (hf : f ∈ (gridLayout v width gap lead).fields) : f.offset ≤ v.byteLimit := by
  obtain ⟨k, hround, rfl⟩ := (mem_gridLayout hw).mp hf
  cases k with
  | zero =>
    have hspacing := add_gridSpacing_le hw (Nat.dvd_zero width) hlimit
      (Nat.zero_add gap ▸ hgap)
    show lead * gridSpacing width gap + 0 * _ ≤ v.byteLimit
    rcases hlead with rfl | rfl <;> omega
  | succ k =>
    have hround := (hround.resolve_left (Nat.succ_ne_zero k)).2
    have hdvd := Nat.dvd_add (dvd_gridOffset width gap lead k) (Nat.dvd_refl width)
    show gridOffset width gap lead (k + 1) ≤ v.byteLimit
    rw [gridOffset_succ]
    exact add_gridSpacing_le hw hdvd hlimit hround

/-! ### Integers in slots -/

theorem increasing_slotted (hw : 0 < width) (kinds : List Kind) :
    (slotted width kinds).fields.Pairwise fun f g => f.offset < g.offset := by
  have hslots : (kinds.zipIdx 0).Pairwise fun a b => a.2 < b.2 := by
    rw [← List.pairwise_map, List.zipIdx_map_snd]
    exact List.pairwise_lt_range'
  refine List.Pairwise.filter _ (List.pairwise_map.mpr (hslots.imp fun hlt => ?_))
  exact Nat.mul_lt_mul_of_pos_right hlt hw

/-- Fields in the order of their offsets are determined by which they are. -/
theorem eq_of_increasing {fields' : List Field}
    (h : fields.Pairwise fun f g => f.offset < g.offset)
    (h' : fields'.Pairwise fun f g => f.offset < g.offset)
    (hmem : ∀ f, f ∈ fields ↔ f ∈ fields') : fields = fields' := by
  have hnodup : ∀ {fields : List Field}, (fields.Pairwise fun f g => f.offset < g.offset) →
      fields.Nodup := by
    intro fields hincreasing
    refine hincreasing.imp ?_
    rintro f _ hlt rfl
    exact Nat.lt_irrefl _ hlt
  have hperm := (List.perm_ext_iff_of_nodup (hnodup h) (hnodup h')).mpr hmem
  exact hperm.eq_of_pairwise (fun _ _ _ _ hlt hgt => absurd hgt (Nat.lt_asymm hlt)) h h'

/-- Integers in some of the slots are what a filling with integers and padding makes. -/
theorem exists_slotted_ints (hw : 0 < width)
    (hincreasing : fields.Pairwise fun f g => f.offset < g.offset)
    (hslots : ∀ f ∈ fields, ∃ slot < n, f = ⟨slot * width, .int, width⟩) :
    ∃ kinds : List Kind, kinds.length = n ∧ (∀ kind ∈ kinds, kind = .padding ∨ kind = .int) ∧
      slotted width kinds = ⟨fields⟩ := by
  let kindAt (slot : Nat) : Kind :=
    if ⟨slot * width, .int, width⟩ ∈ fields then .int else .padding
  refine ⟨(List.range n).map kindAt, by simp, ?_, ?_⟩
  · refine List.forall_mem_map.mpr fun slot _ => ?_
    show ite _ _ _ = _ ∨ ite _ _ _ = _
    split
    · exact .inr rfl
    · exact .inl rfl
  · refine congrArg Layout.mk (eq_of_increasing (increasing_slotted hw _) hincreasing fun f => ?_)
    refine mem_slotted.trans ⟨?_, ?_⟩
    · rintro ⟨slot, kind, hget, hkind, rfl⟩
      rw [List.getElem?_map, Option.map_eq_some_iff] at hget
      obtain ⟨other, hother, rfl⟩ := hget
      obtain ⟨_, rfl⟩ := List.getElem?_eq_some_iff.mp hother
      rw [List.getElem_range] at hkind ⊢
      by_cases hmem : ⟨slot * width, .int, width⟩ ∈ fields
      · rwa [show kindAt slot = .int from if_pos hmem]
      · exact absurd (if_neg hmem) hkind
    · intro hf
      obtain ⟨slot, hslot, rfl⟩ := hslots f hf
      refine ⟨slot, .int, ?_, by decide, rfl⟩
      rw [List.getElem?_map, List.getElem?_range hslot]
      exact congrArg some (if_pos hf)

/-! ### Walks without capabilities -/

theorem Walk.fields_subset (hv : v.Moving) (hw : Walk v l word last) :
    l.fields ⊆ last.fields := by
  induction hw with
  | stop => exact List.Subset.refl _
  | move _ hm hn _ ih =>
    rw [eq_extend_of_mem_moves hv hm hn] at ih
    exact fun f hf => ih (Layout.mem_extend.mpr (.inl hf))

/-- Where a walk appends no capability, it stays at multiples of the step, and so it appends every
field right at the end of a layout within the limit. -/
theorem Walk.offset_le (hv : v.Moving) (hw : Walk v l word last)
    (hsolid : ∀ f ∈ last.fields, f.kind ≠ .ptr) (hl : v.recursionStep ∣ l.total)
    (hle : ∀ f ∈ l.fields, f.offset ≤ v.byteLimit) : ∀ f ∈ last.fields, f.offset ≤ v.byteLimit := by
  induction hw with
  | stop => exact hle
  | @move l next last kind size word hstart hm hn hw ih =>
    obtain rfl := eq_extend_of_mem_moves hv hm hn
    have hkind : kind ≠ .ptr :=
      hsolid _ (hw.fields_subset hv (Layout.mem_extend.mpr (.inr rfl)))
    obtain rfl : size = v.recursionStep := by
      simp only [moves, List.mem_cons, Prod.mk.injEq, List.not_mem_nil, or_false] at hm
      tauto
    obtain ⟨slot, hslot⟩ := hl
    rw [Nat.mul_comm] at hslot
    have hextend := extend_slot hv.step_pos hslot kind
    refine ih hsolid ?_ ?_
    · rw [hextend, Layout.total_concat, Field.stop]
      exact Nat.dvd_add (Nat.dvd_mul_left _ _) (Nat.dvd_refl _)
    · intro f hf
      rw [hextend, List.mem_append, List.mem_singleton] at hf
      rcases hf with hf | rfl
      · exact hle f hf
      · exact hslot ▸ hstart

/-! ### Layouts of both strategies -/

/-- The search finds a layout of the grid at the step exactly if all of its integers start within
the limit. -/
theorem gridLayout_mem_search_iff (hv : v.Valid) :
    gridLayout v v.recursionStep gap lead ∈ (search v .empty).recorded ↔
      ∀ f ∈ (gridLayout v v.recursionStep gap lead).fields, f.offset ≤ v.byteLimit := by
  have hsearchable := hv.searchable
  constructor
  · intro hmem
    obtain ⟨word, last, hwalk, _, hlast⟩ := (mem_recorded_search hsearchable).mp hmem
    have hfields := (Layout.possibility?_eq_some_iff.mp hlast).1
    have hptr : ∀ f ∈ last.fields, f.kind ≠ .ptr := by
      intro f hf hkind
      have hmem : f ∈ last.stripPadding.fields :=
        Layout.mem_stripPadding.mpr ⟨hf, by rw [hkind]; decide⟩
      rw [hfields, mem_gridLayout hv.step_pos] at hmem
      obtain ⟨_, _, rfl⟩ := hmem
      cases hkind
    intro f hf
    rw [← hfields, Layout.mem_stripPadding] at hf
    exact hwalk.offset_le hsearchable.toMoving hptr (Nat.dvd_zero _) (fun f hf => nomatch hf) f hf.1
  · intro hwithin
    have hincreasing : (gridLayout v v.recursionStep gap lead).fields.Pairwise
        fun f g => f.offset < g.offset := by
      refine (disjoint_gridFields _ gap lead _).imp_of_mem fun {f g} hf _ hstop => ?_
      obtain ⟨k, _, rfl⟩ := List.mem_map.mp hf
      exact Nat.lt_of_lt_of_le (Nat.lt_add_of_pos_right hv.step_pos) hstop
    obtain ⟨kinds, hlength, hkinds, hslotted⟩ := exists_slotted_ints (n := slotCount v)
      hv.step_pos hincreasing fun f hf => by
        have hoffset := hwithin f hf
        obtain ⟨k, _, rfl⟩ := (mem_gridLayout hv.step_pos).mp hf
        obtain ⟨slot, hslot⟩ := dvd_gridOffset v.recursionStep gap lead k
        rw [Nat.mul_comm] at hslot
        refine ⟨slot, ?_, by rw [hslot]⟩
        rwa [lt_slotCount_iff hsearchable, ← hslot]
    have hne : (slotted v.recursionStep kinds).fields ≠ [] := by
      rw [hslotted]
      simp [gridLayout, gridFields, gridRounds]
    have hmoves : ∀ kind ∈ kinds, (kind, v.recursionStep) ∈ moves v := by
      intro kind hkind
      rcases hkinds kind hkind with rfl | rfl <;> simp [moves]
    have hmem := slotted_mem_search hsearchable hlength hmoves hne
    rwa [hslotted] at hmem

/-- Of a valid variant the search finds a layout that the grid collects for the width of the search
step exactly if none of its fields starts past the limit. If the limit is a multiple of the step,
it finds all layouts of the grid whose integers are as wide as the step. -/
theorem search_finds_grid_within_limit (hv : v.defect? = none) :
    ∃ gridded searched, Operation.grid.perform v ∅ = (.finished, gridded) ∧
      Operation.search.perform v ∅ = (.finished, searched) ∧
      (∀ l, l ∈ gridded ↔ ∃ width ∈ v.intSizes, GridOfWidth v width l) ∧
      (∀ l, GridOfWidth v v.recursionStep l →
        (l ∈ searched ↔ ∀ f ∈ l.fields, f.offset ≤ v.byteLimit)) ∧
      (v.recursionStep ∣ v.byteLimit → ∀ l ∈ gridded,
        (∀ f ∈ l.fields, f.size = v.recursionStep) → l ∈ searched) := by
  have hv := Variant.defect?_eq_none_iff.mp hv
  have hgridded : ∀ l, l ∈ (grid v).collectInto ∅ ↔ l ∈ (grid v).recorded := by
    intro l
    simp [Run.mem_collectInto]
  have hsearched : ∀ l, l ∈ (search v .empty).collectInto ∅ ↔ l ∈ (search v .empty).recorded := by
    intro l
    simp [Run.mem_collectInto]
  refine ⟨(grid v).collectInto ∅, (search v .empty).collectInto ∅, ?_, ?_,
    fun l => (hgridded l).trans (mem_grid_iff hv), fun l hl => ?_, fun hlimit l hl hsize => ?_⟩
  · rw [perform_grid, fault_grid hv.fillable]
  · rw [perform_search, fault_search hv.searchable]
  · obtain ⟨gap, _, lead, _, rfl⟩ := (gridOfWidth_iff hv hv.step_mem).mp hl
    exact (hsearched _).trans (gridLayout_mem_search_iff hv)
  · have hfound := gridOfWidth_of_size hv ((hgridded l).mp hl) hsize
    obtain ⟨gap, hgap, lead, hlead, rfl⟩ := (gridOfWidth_iff hv hv.step_mem).mp hfound
    rw [hsearched, gridLayout_mem_search_iff hv]
    exact fun f => offset_le_of_mem_gridLayout hv.step_pos hlimit (hv.padding_le gap hgap) hlead

/-- A gap of 20 bytes pushes the integer behind it to byte 24. The search finds it there up to a
limit of 24 bytes, and not up to one of 20 bytes, where it finds what starts within the limit. -/
theorem search_finds_grid_behind_twenty :
    let v : Variant := { Variant.filc with byteLimit := 20, paddingAmounts := [0, 20] }
    let w : Variant := { v with byteLimit := 24 }
    (v.defect? = none ∧ ∃ searched, Operation.search.perform v ∅ = (.finished, searched) ∧
      ⟨[⟨0, .int, 8⟩, ⟨8, .int, 8⟩, ⟨16, .int, 8⟩]⟩ ∈ searched ∧ ⟨[⟨24, .int, 8⟩]⟩ ∉ searched) ∧
    w.defect? = none ∧ ∃ searched, Operation.search.perform w ∅ = (.finished, searched) ∧
      ⟨[⟨24, .int, 8⟩]⟩ ∈ searched := by
  intro v w
  have hv : v.defect? = none := by decide
  have hw : w.defect? = none := by decide
  have hvalid := Variant.defect?_eq_none_iff.mp hv
  have hvalid' := Variant.defect?_eq_none_iff.mp hw
  have hrow : GridOfWidth v v.recursionStep ⟨[⟨0, .int, 8⟩, ⟨8, .int, 8⟩, ⟨16, .int, 8⟩]⟩ :=
    (gridOfWidth_iff hvalid hvalid.step_mem).mpr ⟨0, by decide, 0, .inl rfl, by decide⟩
  have hpushed : GridOfWidth v v.recursionStep ⟨[⟨24, .int, 8⟩]⟩ :=
    (gridOfWidth_iff hvalid hvalid.step_mem).mpr ⟨20, by decide, 1, .inr rfl, by decide⟩
  have hpushed' : GridOfWidth w w.recursionStep ⟨[⟨24, .int, 8⟩]⟩ :=
    (gridOfWidth_iff hvalid' hvalid'.step_mem).mpr ⟨20, by decide, 1, .inr rfl, by decide⟩
  obtain ⟨_, searched, _, hsearch, _, hfound, _⟩ := search_finds_grid_within_limit hv
  obtain ⟨_, searched', _, hsearch', hgridded, _, hall⟩ := search_finds_grid_within_limit hw
  refine ⟨⟨hv, searched, hsearch, (hfound _ hrow).mpr (by decide),
    mt (hfound _ hpushed).mp (by decide)⟩, hw, searched', hsearch', ?_⟩
  exact hall (by decide) _ ((hgridded _).mpr ⟨8, by decide, hpushed'⟩) (by decide)

end CapFixture.Enumeration
