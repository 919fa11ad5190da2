import Mathlib.Data.List.Basic
import CapFixture.Layout
import CapFixture.Proofs.Results

/-!
# Well-formed layouts

What appending to a layout does, and what it keeps: every field has a size that the variant
allows, integers and capabilities are aligned, and no field reaches into a later one.

## Main definitions

- `Layout.extend` — the layout with one more field at the next free place
- `Layout.WellFormed` — the invariant of appending and of leaving out fields
- `Layout.Canonical` — the layouts that steps make and that have no padding
- `Layout.Solid` — what is known of layouts without padding, however they are made
- `Layout.Bounded`, `Layout.Possible` — what the enumeration keeps, and what it yields
- `Layout.Within` — how far a layout reaches
-/

namespace CapFixture.Layout

variable {v : Variant} {l k : Layout} {kind : Kind} {size : Nat}

/-! ### Rounding up -/

theorem dvd_nextOffset (l : Layout) (hs : 0 < size) : size ∣ l.nextOffset size := by
  rw [nextOffset, if_neg (by omega)]
  exact Nat.dvd_mul_left _ _

theorem nextOffset_lt (l : Layout) (hs : 0 < size) : l.nextOffset size < l.total + size := by
  rw [nextOffset, if_neg (by omega)]
  have := Nat.div_mul_le_self (l.total + (size - 1)) size
  omega

theorem offsetFor_lt (l : Layout) (kind : Kind) (hs : 0 < size) :
    l.offsetFor kind size < l.total + size := by
  unfold offsetFor
  split
  · omega
  · exact l.nextOffset_lt hs

/-! ### Appending -/

/-- The layout with one more field, where `append` puts it. -/
def extend (l : Layout) (kind : Kind) (size : Nat) : Layout :=
  ⟨l.fields ++ [⟨l.offsetFor kind size, kind, size⟩]⟩

@[simp]
theorem total_extend (l : Layout) (kind : Kind) (size : Nat) :
    (l.extend kind size).total = l.offsetFor kind size + size :=
  total_concat _ _

theorem mem_extend {f : Field} :
    f ∈ (l.extend kind size).fields ↔ f ∈ l.fields ∨ f = ⟨l.offsetFor kind size, kind, size⟩ := by
  simp [extend]

@[simp]
theorem stripPadding_extend_padding (l : Layout) (size : Nat) :
    (l.extend .padding size).stripPadding = l.stripPadding := by
  simp [extend, stripPadding, without]

theorem total_add_le_total_extend (l : Layout) (kind : Kind) (size : Nat) :
    l.total + size ≤ (l.extend kind size).total := by
  have := l.total_le_offsetFor kind size
  rw [total_extend]
  omega

theorem total_extend_lt (l : Layout) (kind : Kind) (hs : 0 < size) :
    (l.extend kind size).total < l.total + 2 * size := by
  have := l.offsetFor_lt kind hs
  rw [total_extend]
  omega

/-- Where a field goes is known as a word, if a word holds it. -/
theorem wordOffset_of_lt (h : l.offsetFor kind size < wordSize) :
    l.wordOffset kind size = .ok (l.offsetFor kind size) := by
  have htotal := Nat.lt_of_le_of_lt (l.total_le_offsetFor kind size) h
  rw [wordOffset, wordTotal_eq, Arithmetic.checked_of_lt htotal]
  unfold offsetFor nextOffset at h ⊢
  by_cases hkind : kind = .padding
  · simp [hkind]
  · by_cases hsize : size = 0
    · simp [hsize]
    · simp only [hkind, hsize, or_self, if_false] at h ⊢
      exact Arithmetic.checked_of_lt h _

/-- The end is looked at first, and what is rounded up is a product. -/
theorem wordOffset_of_le (h : wordSize ≤ l.offsetFor kind size) :
    ∃ operation, l.wordOffset kind size = .error (.overflow operation) := by
  rcases Nat.lt_or_ge l.total wordSize with htotal | htotal
  · rw [wordOffset, wordTotal_eq, Arithmetic.checked_of_lt htotal]
    unfold offsetFor nextOffset at h
    split at h
    · omega
    · next hkind =>
      split at h
      · omega
      · next hsize =>
        simp only [hkind, hsize, or_self, if_false]
        exact ⟨.mul, Arithmetic.checked_of_le h _⟩
  · rw [wordOffset, wordTotal_eq, Arithmetic.checked_of_le htotal]
    exact ⟨.add, rfl⟩

/-- The variant allows the field, and its offset is a word. -/
theorem append_of_allows (hs : 0 < size) (ha : v.allows kind size = true)
    (hfits : l.offsetFor kind size < wordSize) :
    l.append v kind size = .ok (l.extend kind size) := by
  have hmake : Field.make v kind (l.offsetFor kind size) size =
      .ok ⟨l.offsetFor kind size, kind, size⟩ := by
    rw [Field.make, if_neg (by simp [ha])]
    by_cases hk : kind = .padding
    · rw [if_pos hk]
    · have hdvd : l.offsetFor kind size % size = 0 := by
        rw [offsetFor, if_neg hk]
        exact Nat.mod_eq_zero_of_dvd (l.dvd_nextOffset hs)
      rw [if_neg hk, if_neg (by omega), if_neg (by simp [hdvd])]
  rw [append, if_neg (by omega), wordOffset_of_lt hfits]
  simp only [hmake]
  rfl

/-- An offset that no word holds ends an append before the field is looked at. -/
theorem append_of_le (hsome : ¬ (kind = .padding ∧ size = 0))
    (h : wordSize ≤ l.offsetFor kind size) :
    ∃ operation, l.append v kind size = .error (.overflow operation) := by
  obtain ⟨operation, hoffset⟩ := wordOffset_of_le h
  exact ⟨operation, by rw [append, if_neg hsome, hoffset]⟩

/-- To an append the variant matters only in whether it allows the field. -/
theorem append_congr {w : Variant} (h : v.allows kind size = w.allows kind size) (l : Layout) :
    l.append v kind size = l.append w kind size := by
  have hmake : ∀ offset, Field.make v kind offset size = Field.make w kind offset size := by
    intro offset
    rw [Field.make, Field.make, h]
  simp only [append, hmake]

/-- Padding can be appended where a word holds the end. -/
theorem exists_append_padding (v : Variant) (hl : l.total < wordSize) (size : Nat) :
    ∃ k, l.append v .padding size = .ok k ∧ k.total = l.total + size := by
  by_cases hs : size = 0
  · exact ⟨l, by rw [append, if_pos ⟨rfl, hs⟩], by rw [hs, Nat.add_zero]⟩
  · refine ⟨l.extend .padding size, ?_, ?_⟩
    · exact append_of_allows (Nat.pos_of_ne_zero hs) (by simpa [Variant.allows] using hs) hl
    · rw [total_extend, offsetFor, if_pos rfl]

/-- Appending puts an allowed field of positive size at the end, or changes nothing. -/
theorem append_cases (h : l.append v kind size = .ok k) :
    (kind = .padding ∧ size = 0 ∧ k = l) ∨
    (0 < size ∧ v.allows kind size = true ∧ k = l.extend kind size) := by
  rcases append_eq_ok h with hnothing | ⟨hs, ⟨field, hmake⟩, hk⟩
  · exact .inl hnothing
  · refine .inr ⟨hs, ?_, hk⟩
    unfold Field.make at hmake
    split at hmake
    · cases hmake
    · next ha => simpa using ha

/-- Alignment and the new field together move the end by less than twice the field. -/
theorem total_le_add_of_append (h : l.append v kind size = .ok k) :
    k.total ≤ l.total + (2 * size - 1) := by
  rcases append_cases h with ⟨_, _, rfl⟩ | ⟨hs, _, rfl⟩
  · exact Nat.le_add_right _ _
  · have htotal := l.total_extend_lt kind hs
    omega

theorem total_of_append_padding (h : l.append v .padding size = .ok k) :
    k.total = l.total + size := by
  rcases append_cases h with ⟨_, rfl, rfl⟩ | ⟨_, _, rfl⟩
  · rfl
  · rw [total_extend, offsetFor, if_pos rfl]

/-! ### Extent -/

theorem total_of_mem_getLast? {last : Field} (h : last ∈ l.fields.getLast?) :
    l.total = last.stop := by
  rw [total, Option.mem_def.mp h]

/-- The layout and its fields start and stop at the bound or before it. -/
def Within (l : Layout) (bound : Nat) : Prop :=
  l.total ≤ bound ∧ ∀ f ∈ l.fields, f.offset ≤ bound ∧ f.stop ≤ bound

theorem within_of_stop_le {bound : Nat} (h : ∀ f ∈ l.fields, f.stop ≤ bound) :
    l.Within bound := by
  refine ⟨?_, fun f hf => ⟨Nat.le_trans (Nat.le_add_right _ _) (h f hf), h f hf⟩⟩
  obtain ⟨fields⟩ := l
  rcases List.eq_nil_or_concat' fields with rfl | ⟨front, last, rfl⟩
  · exact Nat.zero_le bound
  · rw [total_concat]
    exact h last (by simp)

/-! ### Well-formedness -/

theorem mem_stripPadding {f : Field} :
    f ∈ l.stripPadding.fields ↔ f ∈ l.fields ∧ f.kind ≠ .padding := by
  simp [stripPadding, Layout.without]

/-- What appending keeps. -/
structure WellFormed (v : Variant) (l : Layout) : Prop where
  allowed : ∀ f ∈ l.fields, v.allows f.kind f.size = true
  positive : ∀ f ∈ l.fields, 0 < f.size
  aligned : ∀ f ∈ l.fields, f.kind ≠ .padding → f.size ∣ f.offset
  disjoint : l.fields.Pairwise fun f g => f.stop ≤ g.offset

theorem wellFormed_empty (v : Variant) : WellFormed v .empty where
  allowed := by simp [empty]
  positive := by simp [empty]
  aligned := by simp [empty]
  disjoint := List.Pairwise.nil

namespace WellFormed

/-- Every field stops at the end of the layout at the latest. -/
theorem stop_le_total (h : WellFormed v l) {f : Field} (hf : f ∈ l.fields) : f.stop ≤ l.total := by
  obtain ⟨fields⟩ := l
  rcases List.eq_nil_or_concat' fields with rfl | ⟨front, last, rfl⟩
  · cases hf
  · rw [total_concat]
    rcases List.mem_append.mp hf with hfront | hlast
    · have hstop := (List.pairwise_append.mp h.disjoint).2.2 f hfront last (by simp)
      exact Nat.le_trans hstop (Nat.le_add_right _ _)
    · exact Nat.le_of_eq (congrArg Field.stop (List.mem_singleton.mp hlast))

theorem within (h : WellFormed v l) {bound : Nat} (hl : l.total ≤ bound) : l.Within bound :=
  within_of_stop_le fun _ hf => Nat.le_trans (h.stop_le_total hf) hl

theorem extend (h : WellFormed v l) (hs : 0 < size) (ha : v.allows kind size = true) :
    WellFormed v (l.extend kind size) where
  allowed := by
    intro f hf
    rcases mem_extend.mp hf with hf | rfl
    · exact h.allowed f hf
    · exact ha
  positive := by
    intro f hf
    rcases mem_extend.mp hf with hf | rfl
    · exact h.positive f hf
    · exact hs
  aligned := by
    intro f hf hsolid
    rcases mem_extend.mp hf with hf | rfl
    · exact h.aligned f hf hsolid
    · rw [offsetFor, if_neg hsolid]
      exact l.dvd_nextOffset hs
  disjoint := by
    refine List.pairwise_append.mpr ⟨h.disjoint, List.pairwise_singleton _ _, ?_⟩
    intro f hf g hg
    rw [List.mem_singleton.mp hg]
    exact Nat.le_trans (h.stop_le_total hf) (l.total_le_offsetFor kind size)

theorem append (h : WellFormed v l) (hk : l.append v kind size = .ok k) : WellFormed v k := by
  rcases append_cases hk with ⟨_, _, rfl⟩ | ⟨hs, ha, rfl⟩
  · exact h
  · exact h.extend hs ha

theorem without (h : WellFormed v l) (kind : Kind) : WellFormed v (l.without kind) where
  allowed := fun f hf => h.allowed f (List.mem_filter.mp hf).1
  positive := fun f hf => h.positive f (List.mem_filter.mp hf).1
  aligned := fun f hf => h.aligned f (List.mem_filter.mp hf).1
  disjoint := h.disjoint.filter _

/-- Of two fields one stops before the other starts. -/
theorem apart (h : WellFormed v l) {f g : Field} (hf : f ∈ l.fields) (hg : g ∈ l.fields)
    (hne : f ≠ g) : f.stop ≤ g.offset ∨ g.stop ≤ f.offset := by
  obtain ⟨front, back, hl⟩ := List.append_of_mem hf
  have hdisjoint := h.disjoint
  rw [hl, List.pairwise_append, List.pairwise_cons] at hdisjoint
  rw [hl, List.mem_append, List.mem_cons] at hg
  obtain ⟨_, ⟨hback, _⟩, hfront⟩ := hdisjoint
  rcases hg with hg | rfl | hg
  · exact .inr (hfront g hg f List.mem_cons_self)
  · exact absurd rfl hne
  · exact .inl (hback g hg)

theorem nodup (h : WellFormed v l) : l.fields.Nodup := by
  refine h.disjoint.imp_of_mem fun {f g} hf _ hstop hfg => ?_
  have hpositive := h.positive f hf
  rw [← hfg, Field.stop] at hstop
  omega

theorem step (h : WellFormed v l) {step : Step} (hk : l.step v step = .ok k) : WellFormed v k := by
  cases step with
  | append kind size => exact h.append hk
  | stripPadding =>
    obtain rfl := Except.ok.inj hk
    exact h.without .padding
  | without kind =>
    obtain rfl := Except.ok.inj hk
    exact h.without kind

theorem steps (h : WellFormed v l) {steps : List Step}
    (hk : steps.foldlM (Layout.step v) l = .ok k) : WellFormed v k := by
  induction steps generalizing l with
  | nil =>
    obtain rfl := Except.ok.inj hk
    exact h
  | cons first steps ih =>
    rw [List.foldlM_cons] at hk
    obtain ⟨next, hnext, hk⟩ := bind_eq_ok_iff.mp hk
    exact ih (h.step hnext) hk

end WellFormed

/-- Made of the empty layout by steps, and free of padding. -/
structure Canonical (v : Variant) (l : Layout) : Prop where
  built : ∃ steps, build v steps = .ok l
  solid : ∀ f ∈ l.fields, f.kind ≠ .padding

/-- Well-formed, and free of padding. -/
structure Solid (v : Variant) (l : Layout) : Prop extends WellFormed v l where
  solid : ∀ f ∈ l.fields, f.kind ≠ .padding

theorem Solid.dvd_offset (h : Solid v l) {f : Field} (hf : f ∈ l.fields) : f.size ∣ f.offset :=
  h.aligned f hf (h.solid f hf)

theorem Canonical.toSolid (h : Canonical v l) : Solid v l := by
  obtain ⟨steps, hsteps⟩ := h.built
  exact ⟨(wellFormed_empty v).steps hsteps, h.solid⟩

/-- Well-formed, and appended to as the enumeration does: an integer or a capability is put at
the end of a layout that ends within the limit. -/
structure Bounded (v : Variant) (l : Layout) : Prop extends WellFormed v l where
  starts : ∀ f ∈ l.fields, f.kind ≠ .padding → f.offset < v.byteLimit + f.size

theorem bounded_empty (v : Variant) : Bounded v .empty where
  toWellFormed := wellFormed_empty v
  starts := by simp [empty]

theorem Bounded.append (h : Bounded v l) (hl : kind = .padding ∨ l.total ≤ v.byteLimit)
    (hk : l.append v kind size = .ok k) : Bounded v k where
  toWellFormed := h.toWellFormed.append hk
  starts := by
    -- padding may start past the limit, but it has no bound to keep
    rcases append_cases hk with ⟨_, _, rfl⟩ | ⟨hs, _, rfl⟩
    · exact h.starts
    · intro f hf hsolid
      rcases mem_extend.mp hf with hf | rfl
      · exact h.starts f hf hsolid
      · have hoffset := l.offsetFor_lt kind hs
        have hwithin := hl.resolve_left hsolid
        exact Nat.lt_of_lt_of_le hoffset (Nat.add_le_add_right hwithin _)

/-- What is left of a layout of the enumeration without its padding, where that is anything. -/
structure Possible (v : Variant) (l : Layout) : Prop extends Bounded v l where
  solid : ∀ f ∈ l.fields, f.kind ≠ .padding
  nonempty : l.fields ≠ []

theorem Possible.toSolid (h : Possible v l) : Solid v l := ⟨h.toWellFormed, h.solid⟩

theorem Bounded.possible (h : Bounded v l) (hl : l.stripPadding.fields ≠ []) :
    Possible v l.stripPadding where
  toWellFormed := h.toWellFormed.without .padding
  starts := fun f hf => h.starts f (mem_stripPadding.mp hf).1
  solid := fun _ hf => (mem_stripPadding.mp hf).2
  nonempty := hl

/-- The last field starts less than its size past the limit, and ends at the end of the layout. -/
theorem Possible.total_lt (h : Possible v l) {widest : Nat}
    (hw : ∀ kind size, kind ≠ .padding → v.allows kind size = true → size ≤ widest) :
    l.total < v.byteLimit + 2 * widest := by
  obtain ⟨fields⟩ := l
  rcases List.eq_nil_or_concat' fields with rfl | ⟨front, last, rfl⟩
  · exact absurd rfl h.nonempty
  · have hlast : last ∈ front ++ [last] := by simp
    have hstart := h.starts last hlast (h.solid last hlast)
    have hsize := hw last.kind last.size (h.solid last hlast) (h.allowed last hlast)
    rw [total_concat, Field.stop]
    omega

end CapFixture.Layout
