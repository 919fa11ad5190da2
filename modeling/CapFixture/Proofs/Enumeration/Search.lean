import Mathlib.Algebra.Group.Nat.Defs
import CapFixture.Enumeration.Search
import CapFixture.Proofs.Enumeration.Run
import CapFixture.Proofs.Variant.Validity

/-!
# What the search finds

The search records the layouts at the ends of the walks that cross the limit with their last
move, and nothing else. Every move advances by at least a stride, which bounds the walks and with
them the number of layouts. All of this is as long as words hold the ends of the layouts. If the
search fails, it has made a layout whose end no word holds.

## Main definitions

- `Variant.Moving`, `Variant.Searchable` — what the search needs of a variant
- `Enumeration.Overruns` — the search makes a layout whose end no word holds
- `Enumeration.Walk` — moves one after the other, each from a layout that ends within the limit
- `Enumeration.stride` — the least advance of a move
-/

namespace CapFixture

/-- What keeps the search going: it advances with every move, and the variant allows its moves. -/
structure Variant.Moving (v : Variant) : Prop where
  step_pos : 0 < v.recursionStep
  capability_pos : 0 < v.capabilityWidth
  step_mem : v.recursionStep ∈ v.intSizes

/-- The search keeps going, and words hold the end of every layout that it comes to. -/
structure Variant.Searchable (v : Variant) : Prop extends v.Moving where
  step_room : v.byteLimit + 2 * v.recursionStep ≤ wordSize
  capability_room : v.byteLimit + 2 * v.capabilityWidth ≤ wordSize

theorem Variant.Valid.searchable {v : Variant} (h : v.Valid) : v.Searchable where
  step_pos := h.step_pos
  capability_pos := h.capability_pos
  step_mem := h.step_mem
  step_room := by
    have hlimit := h.limit_le
    have hstep := h.step_le
    unfold maxByteLimit at hlimit
    unfold wordSize
    omega
  capability_room := by
    have hlimit := h.limit_le
    have hcapability := h.capability_le
    unfold maxByteLimit at hlimit
    unfold wordSize
    omega

namespace Enumeration

variable {v : Variant} {l next last : Layout} {kind : Kind} {size depth : Nat}
  {word : List (Kind × Nat)}

/-- The word of moves leads from one layout to another, and every move of it starts at a layout
that ends within the limit. -/
inductive Walk (v : Variant) : Layout → List (Kind × Nat) → Layout → Prop
  | stop (l : Layout) : Walk v l [] l
  | move {l next last : Layout} {kind : Kind} {size : Nat} {word : List (Kind × Nat)}
      (hl : l.total ≤ v.byteLimit) (hm : (kind, size) ∈ moves v)
      (hn : l.append v kind size = .ok next) (hw : Walk v next word last) :
      Walk v l ((kind, size) :: word) last

/-- No move advances by less. -/
def stride (v : Variant) : Nat := min v.recursionStep v.capabilityWidth

/-! ### Moves -/

theorem stride_le_of_mem_moves (hm : (kind, size) ∈ moves v) : stride v ≤ size := by
  have hstep : stride v ≤ v.recursionStep := Nat.min_le_left _ _
  have hcapability : stride v ≤ v.capabilityWidth := Nat.min_le_right _ _
  simp only [moves, List.mem_cons, Prod.mk.injEq, List.not_mem_nil, or_false] at hm
  rcases hm with ⟨_, rfl⟩ | ⟨_, rfl⟩ | ⟨_, rfl⟩ <;> assumption

theorem stride_pos (hv : v.Moving) : 0 < stride v :=
  Nat.lt_min.mpr ⟨hv.step_pos, hv.capability_pos⟩

theorem size_pos_of_mem_moves (hv : v.Moving) (hm : (kind, size) ∈ moves v) : 0 < size :=
  Nat.lt_of_lt_of_le (stride_pos hv) (stride_le_of_mem_moves hm)

theorem allows_of_mem_moves (hv : v.Moving) (hm : (kind, size) ∈ moves v) :
    v.allows kind size = true := by
  simp only [moves, List.mem_cons, Prod.mk.injEq, List.not_mem_nil, or_false] at hm
  rcases hm with ⟨rfl, rfl⟩ | ⟨rfl, rfl⟩ | ⟨rfl, rfl⟩
  · simpa [Variant.allows] using Nat.ne_of_gt hv.step_pos
  · simpa [Variant.allows] using hv.step_mem
  · simp [Variant.allows]

theorem size_le_of_mem_moves (hv : v.Valid) (hm : (kind, size) ∈ moves v) : size ≤ 16 := by
  have hstep := hv.step_le
  have hcapability := hv.capability_le
  simp only [moves, List.mem_cons, Prod.mk.injEq, List.not_mem_nil, or_false] at hm
  rcases hm with ⟨_, rfl⟩ | ⟨_, rfl⟩ | ⟨_, rfl⟩ <;> assumption

/-- A move that the search makes lands where `append` puts it. -/
theorem eq_extend_of_mem_moves (hv : v.Moving) (hm : (kind, size) ∈ moves v)
    (hn : l.append v kind size = .ok next) : next = l.extend kind size := by
  have hsize := size_pos_of_mem_moves hv hm
  rcases Layout.append_cases hn with ⟨_, rfl, _⟩ | ⟨_, _, hnext⟩
  · cases hsize
  · exact hnext

theorem total_add_stride_le (hm : (kind, size) ∈ moves v) :
    l.total + stride v ≤ (l.extend kind size).total :=
  Nat.le_trans (Nat.add_le_add_left (stride_le_of_mem_moves hm) _)
    (l.total_add_le_total_extend kind size)

theorem total_lt_total_extend (hv : v.Moving) {move : Kind × Nat} (hm : move ∈ moves v) :
    l.total < (l.extend move.1 move.2).total := by
  have hstride := stride_pos hv
  have hadvance : l.total + stride v ≤ (l.extend move.1 move.2).total := total_add_stride_le hm
  omega

/-! ### Words that are too small -/

/-- From the layout on, some moves, each from a layout that ends within the limit, make a layout
whose end no word holds. -/
inductive Overruns (v : Variant) : Layout → Prop
  | here {l : Layout} (h : wordSize ≤ l.total) : Overruns v l
  | move {l : Layout} {move : Kind × Nat} (hl : l.total ≤ v.byteLimit) (hm : move ∈ moves v)
      (h : Overruns v (l.extend move.1 move.2)) : Overruns v l

theorem total_lt_of_not_overruns (h : ¬ Overruns v l) : l.total < wordSize :=
  Nat.lt_of_not_le fun hlarge => h (.here hlarge)

theorem not_overruns_extend {move : Kind × Nat} (h : ¬ Overruns v l) (hl : l.total ≤ v.byteLimit)
    (hm : move ∈ moves v) : ¬ Overruns v (l.extend move.1 move.2) :=
  fun hmove => h (.move hl hm hmove)

/-- The moves that the search makes do not leave the room that a searchable variant has. -/
theorem not_overruns (hv : v.Searchable) (hl : l.total < wordSize) : ¬ Overruns v l := by
  intro h
  induction h with
  | here hlarge => exact Nat.not_lt_of_le hlarge hl
  | @move l move hwithin hm _ ih =>
    obtain ⟨kind, size⟩ := move
    have hadvance := l.total_extend_lt kind (size_pos_of_mem_moves hv.toMoving hm)
    have hroom : v.byteLimit + 2 * size ≤ wordSize := by
      have hstep := hv.step_room
      have hcapability := hv.capability_room
      simp only [moves, List.mem_cons, Prod.mk.injEq, List.not_mem_nil, or_false] at hm
      rcases hm with ⟨_, rfl⟩ | ⟨_, rfl⟩ | ⟨_, rfl⟩ <;> assumption
    exact ih (Nat.lt_of_lt_of_le hadvance (by omega))

theorem not_overruns_empty (hv : v.Searchable) : ¬ Overruns v .empty :=
  not_overruns hv (by decide)

/-! ### The search -/

/-- What the search finds after one move. -/
def branch (v : Variant) (l : Layout) (move : Kind × Nat) : Run :=
  Run.attempt (l.append v move.1 move.2) fun next =>
    if l.total < next.total then search v next else Run.fail .stalled

theorem search_eq (v : Variant) (l : Layout) :
    search v l = Run.attempt l.wordTotal fun total =>
      if v.byteLimit < total then Run.record l else moves v |> Run.each (branch v l) := by
  rw [search]
  split
  · next fault htotal => rw [htotal, Run.attempt]
  · next total htotal =>
    rw [htotal, Run.attempt_ok]
    rfl

theorem search_of_large (h : wordSize ≤ l.total) :
    search v l = Run.fail (.overflow .add) := by
  rw [search_eq, l.wordTotal_eq, Arithmetic.checked_of_le h, Run.attempt]

theorem search_past (hfits : l.total < wordSize) (h : v.byteLimit < l.total) :
    search v l = Run.record l := by
  rw [search_eq, l.wordTotal_eq, Arithmetic.checked_of_lt hfits, Run.attempt_ok, if_pos h]

/-- Within the limit the search tries all moves. -/
theorem search_eq_branches (hfits : l.total < wordSize) (h : l.total ≤ v.byteLimit) :
    search v l = (moves v |> Run.each (branch v l)) := by
  rw [search_eq, l.wordTotal_eq, Arithmetic.checked_of_lt hfits, Run.attempt_ok,
    if_neg (Nat.not_lt_of_le h)]

theorem branch_of_lt (hv : v.Moving) {move : Kind × Nat} (hm : move ∈ moves v)
    (h : l.offsetFor move.1 move.2 < wordSize) :
    branch v l move = search v (l.extend move.1 move.2) := by
  rw [branch, Layout.append_of_allows (size_pos_of_mem_moves hv hm) (allows_of_mem_moves hv hm) h,
    Run.attempt_ok, if_pos (total_lt_total_extend hv hm)]

/-- A move goes on with the search, or no word holds where its field would start. -/
theorem branch_cases (hv : v.Moving) {move : Kind × Nat} (hm : move ∈ moves v) :
    (l.append v move.1 move.2 = .ok (l.extend move.1 move.2) ∧
      branch v l move = search v (l.extend move.1 move.2)) ∨
    (wordSize ≤ (l.extend move.1 move.2).total ∧
      ∃ operation, branch v l move = Run.fail (.overflow operation)) := by
  have hsize := size_pos_of_mem_moves hv hm
  rcases Nat.lt_or_ge (l.offsetFor move.1 move.2) wordSize with hfits | hlarge
  · exact .inl ⟨Layout.append_of_allows hsize (allows_of_mem_moves hv hm) hfits,
      branch_of_lt hv hm hfits⟩
  · obtain ⟨operation, happend⟩ := Layout.append_of_le (v := v) (fun h => by omega) hlarge
    refine .inr ⟨?_, operation, by rw [branch, happend]; rfl⟩
    rw [Layout.total_extend]
    omega

/-- Where there is room, a move goes on with the search. -/
theorem branch_eq_search (hv : v.Moving) {move : Kind × Nat} (hm : move ∈ moves v)
    (h : ¬ Overruns v (l.extend move.1 move.2)) :
    branch v l move = search v (l.extend move.1 move.2) := by
  rcases branch_cases hv hm with ⟨_, hbranch⟩ | ⟨hlarge, _⟩
  · exact hbranch
  · exact absurd (.here hlarge) h

/-- A searchable variant has room for a move from any layout within the limit. -/
theorem append_of_mem_moves (hv : v.Searchable) (hm : (kind, size) ∈ moves v)
    (hl : l.total ≤ v.byteLimit) : l.append v kind size = .ok (l.extend kind size) := by
  have hfits : l.total < wordSize := by
    have hroom := hv.step_room
    have hpos := hv.step_pos
    omega
  rcases branch_cases (l := l) hv.toMoving hm with ⟨happend, _⟩ | ⟨hlarge, _⟩
  · exact happend
  · exact absurd (.here hlarge) (not_overruns_extend (not_overruns hv hfits) hl hm)

/-- Induction along the search: every move of a layout within the limit comes before the layout. -/
theorem search_induction (hv : v.Moving) {motive : Layout → Prop}
    (large : ∀ l : Layout, wordSize ≤ l.total → motive l)
    (past : ∀ l : Layout, l.total < wordSize → v.byteLimit < l.total → motive l)
    (within : ∀ l : Layout, l.total < wordSize → l.total ≤ v.byteLimit →
      (∀ move ∈ moves v, motive (l.extend move.1 move.2)) → motive l)
    (l : Layout) : motive l := by
  induction hleft : v.byteLimit + 1 - l.total using Nat.strongRecOn generalizing l with
  | _ left ih =>
    rcases Nat.lt_or_ge l.total wordSize with hfits | hlarge
    · rcases Nat.lt_or_ge v.byteLimit l.total with hpast | hwithin
      · exact past l hfits hpast
      · refine within l hfits hwithin fun move hm => ih _ ?_ _ rfl
        have hadvance := total_lt_total_extend (l := l) hv hm
        omega
    · exact large l hlarge

/-- The search fails exactly if it makes a layout whose end no word holds. -/
theorem overflowsIff_search (hv : v.Moving) (l : Layout) :
    (search v l).OverflowsIff (Overruns v l) := by
  induction l using search_induction hv with
  | large l hlarge =>
    rw [search_of_large hlarge]
    exact .inr ⟨⟨.add, rfl⟩, .here hlarge⟩
  | past l hfits hpast =>
    rw [search_past hfits hpast]
    refine .inl ⟨rfl, fun hoverruns => ?_⟩
    cases hoverruns with
    | here hlarge => exact Nat.not_lt_of_le hlarge hfits
    | move hl => exact Nat.not_lt_of_le hl hpast
  | within l hfits hl ih =>
    have hbranches : ∀ move ∈ moves v,
        (branch v l move).OverflowsIff (Overruns v (l.extend move.1 move.2)) := by
      intro move hm
      rcases branch_cases hv hm with ⟨_, hbranch⟩ | ⟨hlarge, operation, hbranch⟩
      · rw [hbranch]
        exact ih move hm
      · rw [hbranch]
        exact .inr ⟨⟨operation, rfl⟩, .here hlarge⟩
    rw [search_eq_branches hfits hl]
    rcases Run.OverflowsIff.each hbranches with ⟨hnone, hnot⟩ | ⟨hfault, move, hm, hoverruns⟩
    · refine .inl ⟨hnone, fun hoverruns => ?_⟩
      cases hoverruns with
      | here hlarge => exact Nat.not_lt_of_le hlarge hfits
      | move _ hm hoverruns => exact hnot ⟨_, hm, hoverruns⟩
    · exact .inr ⟨hfault, .move hl hm hoverruns⟩

theorem fault_search_of_not_overruns (hv : v.Moving) (h : ¬ Overruns v l) :
    (search v l).fault = none := by
  rcases overflowsIff_search hv l with ⟨hnone, _⟩ | ⟨_, hoverruns⟩
  · exact hnone
  · exact absurd hoverruns h

theorem fault_search (hv : v.Searchable) : (search v .empty).fault = none :=
  fault_search_of_not_overruns hv.toMoving (not_overruns_empty hv)

theorem recorded_search_within (hv : v.Moving) (h : ¬ Overruns v l) (hl : l.total ≤ v.byteLimit) :
    (search v l).recorded =
      (moves v).flatMap fun move => (search v (l.extend move.1 move.2)).recorded := by
  have hbranch : ∀ move ∈ moves v, branch v l move = search v (l.extend move.1 move.2) :=
    fun move hm => branch_eq_search hv hm (not_overruns_extend h hl hm)
  rw [search_eq_branches (total_lt_of_not_overruns h) hl, Run.each_congr hbranch]
  exact Run.recorded_each fun move hm =>
    fault_search_of_not_overruns hv (not_overruns_extend h hl hm)

/-- The search records nothing but what is at the end of a walk that crosses the limit, also where
it fails. -/
theorem exists_walk_of_mem_recorded (hv : v.Moving) {k : Layout} (hk : k ∈ (search v l).recorded) :
    ∃ word last, Walk v l word last ∧ v.byteLimit < last.total ∧ last.possibility? = some k := by
  induction l using search_induction hv with
  | large l hlarge =>
    rw [search_of_large hlarge] at hk
    cases hk
  | past l hfits hpast =>
    rw [search_past hfits hpast, Run.mem_record] at hk
    exact ⟨[], l, .stop l, hpast, hk⟩
  | within l hfits hl ih =>
    rw [search_eq_branches hfits hl] at hk
    obtain ⟨move, hm, hk⟩ := Run.exists_mem_of_mem_recorded_each hk
    rcases branch_cases hv hm with ⟨happend, hbranch⟩ | ⟨_, operation, hbranch⟩
    · rw [hbranch] at hk
      obtain ⟨word, last, hw, hlast, hk⟩ := ih move hm hk
      exact ⟨move :: word, last, .move hl hm happend hw, hlast, hk⟩
    · rw [hbranch] at hk
      cases hk

/-- Where the search does not fail, it records what is at the end of any walk that crosses the
limit. -/
theorem mem_recorded_of_walk (hv : v.Moving) {k last : Layout} {word : List (Kind × Nat)}
    (h : ¬ Overruns v l) (hw : Walk v l word last) (hlast : v.byteLimit < last.total)
    (hk : last.possibility? = some k) : k ∈ (search v l).recorded := by
  induction hw with
  | stop l => rwa [search_past (total_lt_of_not_overruns h) hlast, Run.mem_record]
  | move hl hm hn _ ih =>
    obtain rfl := eq_extend_of_mem_moves hv hm hn
    have hnext := not_overruns_extend h hl hm
    rw [recorded_search_within hv h hl, List.mem_flatMap]
    exact ⟨_, hm, ih hnext hlast hk⟩

/-- The search records what is at the end of a walk that crosses the limit, and nothing else. -/
theorem mem_recorded_search (hv : v.Searchable) {k : Layout} :
    k ∈ (search v .empty).recorded ↔
      ∃ word last, Walk v .empty word last ∧ v.byteLimit < last.total ∧
        last.possibility? = some k := by
  constructor
  · exact exists_walk_of_mem_recorded hv.toMoving
  · rintro ⟨word, last, hw, hlast, hk⟩
    exact mem_recorded_of_walk hv.toMoving (not_overruns_empty hv) hw hlast hk

/-! ### How far the search goes -/

/-- Every move but the last of a walk leaves at least a stride of the limit behind. -/
theorem Walk.total_add_le (hv : v.Moving) (hw : Walk v l word last) (hne : word ≠ []) :
    l.total + (word.length - 1) * stride v ≤ v.byteLimit := by
  induction hw with
  | stop => exact absurd rfl hne
  | @move l next last kind size word hl hm hn hw ih =>
    cases word with
    | nil => simpa using hl
    | cons m word =>
      have hnext := ih (List.cons_ne_nil m word)
      have hadvance : l.total + stride v ≤ next.total := by
        rw [eq_extend_of_mem_moves hv hm hn]
        exact total_add_stride_le hm
      simp only [List.length_cons, Nat.add_sub_cancel, Nat.succ_mul] at hnext ⊢
      omega

theorem Walk.length_le (hv : v.Moving) (hw : Walk v .empty word last) :
    word.length ≤ v.byteLimit / stride v + 1 := by
  by_cases hne : word = []
  · simp [hne]
  · have htotal := hw.total_add_le hv hne
    have hsteps : word.length - 1 ≤ v.byteLimit / stride v := by
      rw [Nat.le_div_iff_mul_le (stride_pos hv)]
      omega
    omega

/-- A tree of three branches at each of `depth` levels. One more leaf than what is recorded is
left over where the layouts on the way to it are padding only. -/
theorem length_recorded_search_le (hv : v.Moving) (hfits : ¬ Overruns v l)
    (h : v.byteLimit < l.total + depth * stride v) :
    (search v l).recorded.length + (if l.stripPadding.isEmpty then 1 else 0) ≤ 3 ^ depth := by
  have hword := total_lt_of_not_overruns hfits
  induction depth generalizing l with
  | zero =>
    rw [search_past hword (by omega)]
    exact Nat.le_of_eq (Run.length_record l)
  | succ depth ih =>
    by_cases hl : v.byteLimit < l.total
    · rw [search_past hword hl, Run.length_record]
      exact Nat.one_le_pow _ _ (by decide)
    · have hl := Nat.le_of_not_lt hl
      have hbranch : ∀ kind size, (kind, size) ∈ moves v →
          v.byteLimit < (l.extend kind size).total + depth * stride v := by
        intro kind size hm
        have hadvance := total_add_stride_le (l := l) hm
        rw [Nat.succ_mul] at h
        omega
      have hmove : ∀ kind size, (kind, size) ∈ moves v →
          (search v (l.extend kind size)).recorded.length +
            (if (l.extend kind size).stripPadding.isEmpty then 1 else 0) ≤ 3 ^ depth := by
        intro kind size hm
        have hnext := not_overruns_extend hfits hl hm
        exact ih hnext (hbranch _ _ hm) (total_lt_of_not_overruns hnext)
      -- a layout without fields stays one only in the branch of padding
      have hpadding := hmove .padding v.recursionStep (by simp [moves])
      have hint := hmove .int v.recursionStep (by simp [moves])
      have hptr := hmove .ptr v.capabilityWidth (by simp [moves])
      rw [Layout.stripPadding_extend_padding] at hpadding
      rw [recorded_search_within hv hfits hl, Nat.pow_succ]
      simp only [moves, List.flatMap_cons, List.flatMap_nil, List.length_append, List.length_nil]
      omega

end Enumeration

end CapFixture
