import Mathlib.Order.Bounds.Basic
import CapFixture.Proofs.Layout

/-!
# Layouts that steps reach

Steps may fail, and a step that fails leaves the layout as it was. Whatever the variant, and however
appending is mixed with leaving fields out, no field reaches into a later one. Leaving fields out
moves the end back, and the next field is put at that end, where another field may have been. Where
no word holds its offset, nothing is appended.

## Main definitions

- `Layout.tryStep`, `Layout.reach` — steps of which any may fail
- `Layout.EndsLast` — the layout ends where the last of its fields stops
- `Layout.AppendsAtEnd` — what an append does to a layout, for every kind and size
-/

namespace CapFixture.Layout

variable {v : Variant} {l : Layout} {kind : Kind} {size : Nat}

/-- The layout after a step. A step that fails leaves the layout as it was. -/
def tryStep (v : Variant) (l : Layout) (step : Step) : Layout :=
  match l.step v step with
  | .ok k => k
  | .error _ => l

/-- The layout that steps reach from the empty one. -/
def reach (v : Variant) (steps : List Step) : Layout := steps.foldl (tryStep v) empty

/-- No field stops past the end, and the end is that of a field if there are any. It is computed as
a word, or not at all. -/
structure EndsLast (l : Layout) : Prop where
  stop_le : ∀ f ∈ l.fields, f.stop ≤ l.total
  attained : l.fields = [] ∧ l.total = 0 ∨ ∃ f ∈ l.fields, f.stop = l.total
  word : l.wordTotal = if l.total < wordSize then .ok l.total else .error (.overflow .add)

/-- What is appended comes behind all fields. It is refused only for a size that the variant does
not have, or where no word holds its offset. -/
structure AppendsAtEnd (v : Variant) (l : Layout) : Prop where
  nothing : l.append v .padding 0 = .ok l
  padding : ∀ size, 0 < size → l.total < wordSize →
    l.append v .padding size = .ok ⟨l.fields ++ [⟨l.total, .padding, size⟩]⟩
  /-- Integers and capabilities are put at the first multiple of their size. -/
  aligned : ∀ kind size, kind ≠ .padding → 0 < size → v.allows kind size = true → ∃ offset,
    IsLeast {offset | l.total ≤ offset ∧ size ∣ offset} offset ∧
      (offset < wordSize →
        l.append v kind size = .ok ⟨l.fields ++ [⟨offset, kind, size⟩]⟩) ∧
      (wordSize ≤ offset → ∃ operation, l.append v kind size = .error (.overflow operation))
  refused : ∀ kind size, l.offsetFor kind size < wordSize →
    (l.append v kind size = .error (.badSize kind size) ↔
      v.allows kind size = false ∧ ¬ (kind = .padding ∧ size = 0))
  overflows : ∀ kind size, (∃ operation, l.append v kind size = .error (.overflow operation)) ↔
    wordSize ≤ l.offsetFor kind size ∧ ¬ (kind = .padding ∧ size = 0)
  /-- A variant that allows fields of no bytes is at fault itself. -/
  fault_eq : ∀ kind size fault, l.append v kind size = .error fault →
    fault = .badSize kind size ∨ (fault = .zeroWidth ∧ size = 0 ∧ v.allows kind 0 = true) ∨
      ∃ operation, fault = .overflow operation

/-! ### Steps that fail -/

theorem exists_foldlM_eq_foldl (v : Variant) (steps : List Step) (l : Layout) :
    ∃ kept : List Step, kept.Sublist steps ∧
      kept.foldlM (step v) l = .ok (steps.foldl (tryStep v) l) := by
  induction steps generalizing l with
  | nil => exact ⟨[], .slnil, rfl⟩
  | cons first steps ih =>
    rw [List.foldl_cons]
    cases hstep : l.step v first with
    | error fault =>
      have hstays : l.tryStep v first = l := by rw [tryStep, hstep]
      obtain ⟨kept, hsublist, hkept⟩ := ih l
      exact ⟨kept, hsublist.cons first, by rw [hstays, hkept]⟩
    | ok k =>
      have hmoves : l.tryStep v first = k := by rw [tryStep, hstep]
      obtain ⟨kept, hsublist, hkept⟩ := ih k
      refine ⟨first :: kept, hsublist.cons_cons first, ?_⟩
      rw [List.foldlM_cons, hmoves]
      exact bind_eq_ok_iff.mpr ⟨k, hstep, hkept⟩

/-- Steps that fail can be left out, and what is left builds the same layout. -/
theorem exists_build_eq_reach (v : Variant) (steps : List Step) :
    ∃ kept : List Step, kept.Sublist steps ∧ build v kept = .ok (reach v steps) :=
  exists_foldlM_eq_foldl v steps empty

theorem wellFormed_reach (v : Variant) (steps : List Step) : WellFormed v (reach v steps) := by
  obtain ⟨kept, -, hkept⟩ := exists_build_eq_reach v steps
  exact (wellFormed_empty v).steps hkept

theorem WellFormed.endsLast (h : WellFormed v l) : l.EndsLast where
  stop_le := fun _ => h.stop_le_total
  attained := by
    cases hlast : l.fields.getLast? with
    | none => exact .inl ⟨List.getLast?_eq_none_iff.mp hlast, by rw [total, hlast]⟩
    | some last =>
      exact .inr ⟨last, List.mem_of_getLast? hlast, (total_of_mem_getLast? hlast).symm⟩
  word := l.wordTotal_eq

/-! ### Appending -/

/-- A multiple of the size comes before the next offset only if it comes before the end. -/
theorem isLeast_nextOffset (l : Layout) (hs : 0 < size) :
    IsLeast {offset | l.total ≤ offset ∧ size ∣ offset} (l.nextOffset size) := by
  refine ⟨⟨l.total_le_nextOffset size, l.dvd_nextOffset hs⟩, ?_⟩
  rintro offset ⟨htotal, hdvd⟩
  by_contra hbefore
  have hbefore : offset < l.nextOffset size := Nat.lt_of_not_le hbefore
  -- both are multiples of the size, and so they are at least that far apart
  have hgap := Nat.le_of_dvd (Nat.sub_pos_of_lt hbefore) (Nat.dvd_sub (l.dvd_nextOffset hs) hdvd)
  have hnext := l.nextOffset_lt hs
  omega

theorem append_of_not_allows (hfits : l.offsetFor kind size < wordSize)
    (hv : v.allows kind size = false) (hsome : ¬ (kind = .padding ∧ size = 0)) :
    l.append v kind size = .error (.badSize kind size) := by
  have hmake : Field.make v kind (l.offsetFor kind size) size = .error (.badSize kind size) := by
    rw [Field.make, if_pos (by simp [hv])]
  rw [append, if_neg hsome, wordOffset_of_lt hfits]
  simp only [hmake]

/-- An integer or a capability of no bytes has no multiples to be put at. -/
theorem append_zero (hfits : l.offsetFor kind 0 < wordSize) (hkind : kind ≠ .padding)
    (hv : v.allows kind 0 = true) : l.append v kind 0 = .error .zeroWidth := by
  have hmake : Field.make v kind (l.offsetFor kind 0) 0 = .error .zeroWidth := by
    rw [Field.make, if_neg (by simp [hv]), if_neg hkind, if_pos rfl]
  rw [append, if_neg fun h => hkind h.1, wordOffset_of_lt hfits]
  simp only [hmake]

theorem append_padding_zero (v : Variant) (l : Layout) : l.append v .padding 0 = .ok l := by
  rw [append, if_pos ⟨rfl, rfl⟩]

/-- An append is refused where no word holds the offset, if the variant does not allow the field,
or if it allows the field to be empty. -/
theorem fault_append {fault : Fault} (h : l.append v kind size = .error fault) :
    ¬ (kind = .padding ∧ size = 0) ∧
      ((wordSize ≤ l.offsetFor kind size ∧ ∃ operation, fault = .overflow operation) ∨
        l.offsetFor kind size < wordSize ∧
          ((fault = .badSize kind size ∧ v.allows kind size = false) ∨
            fault = .zeroWidth ∧ size = 0 ∧ v.allows kind 0 = true)) := by
  by_cases hnothing : kind = .padding ∧ size = 0
  · obtain ⟨rfl, rfl⟩ := hnothing
    rw [append_padding_zero] at h
    cases h
  refine ⟨hnothing, ?_⟩
  rcases Nat.lt_or_ge (l.offsetFor kind size) wordSize with hfits | hlarge
  · refine .inr ⟨hfits, ?_⟩
    cases hv : v.allows kind size with
    | false =>
      rw [append_of_not_allows hfits hv hnothing] at h
      exact .inl ⟨(Except.error.inj h).symm, rfl⟩
    | true =>
      rcases Nat.eq_zero_or_pos size with rfl | hs
      · have hkind : kind ≠ .padding := fun hkind => hnothing ⟨hkind, rfl⟩
        rw [append_zero hfits hkind hv] at h
        exact .inr ⟨(Except.error.inj h).symm, rfl, hv⟩
      · rw [append_of_allows hs hv hfits] at h
        cases h
  · obtain ⟨operation, happend⟩ := append_of_le (v := v) hnothing hlarge
    rw [happend] at h
    exact .inl ⟨hlarge, operation, (Except.error.inj h).symm⟩

theorem appendsAtEnd (v : Variant) (l : Layout) : AppendsAtEnd v l where
  nothing := append_padding_zero v l
  padding := by
    intro size hs hfits
    have hv : v.allows .padding size = true := by simp [Variant.allows, Nat.ne_of_gt hs]
    rw [append_of_allows hs hv hfits, extend, offsetFor, if_pos rfl]
  aligned := by
    intro kind size hkind hs hv
    have hoffset : l.offsetFor kind size = l.nextOffset size := if_neg hkind
    refine ⟨l.nextOffset size, l.isLeast_nextOffset hs, ?_, ?_⟩
    · intro hfits
      rw [append_of_allows hs hv (hoffset ▸ hfits), extend, hoffset]
    · intro hlarge
      exact append_of_le (fun h => hkind h.1) (hoffset ▸ hlarge)
  refused := by
    intro kind size hfits
    constructor
    · intro h
      obtain ⟨hsome, ⟨_, _, hfault⟩ | ⟨_, ⟨_, hv⟩ | ⟨hfault, _⟩⟩⟩ := fault_append h
      · cases hfault
      · exact ⟨hv, hsome⟩
      · cases hfault
    · rintro ⟨hv, hsome⟩
      exact append_of_not_allows hfits hv hsome
  overflows := by
    intro kind size
    constructor
    · rintro ⟨operation, h⟩
      obtain ⟨hsome, ⟨hlarge, _⟩ | ⟨_, ⟨hfault, _⟩ | ⟨hfault, _⟩⟩⟩ := fault_append h
      · exact ⟨hlarge, hsome⟩
      · cases hfault
      · cases hfault
    · rintro ⟨hlarge, hsome⟩
      exact append_of_le hsome hlarge
  fault_eq := by
    intro kind size fault h
    obtain ⟨_, ⟨_, hfault⟩ | ⟨_, ⟨hfault, _⟩ | hfault⟩⟩ := fault_append h
    · exact .inr (.inr hfault)
    · exact .inl hfault
    · exact .inr (.inl hfault)

/-! ### Every layout that is reached -/

/-- A field is put where the padding was that has been left out, and steps fail on the way. -/
example : reach ⟨"any", 0, [0, 4], [], 3, 1⟩ [.append .int 4, .append .padding 5, .append .int 2,
    .stripPadding, .append .int 0, .append .ptr 3] = ⟨[⟨0, .int, 4⟩, ⟨6, .ptr, 3⟩]⟩ := by
  decide

/-- Behind the largest padding the next multiple of eight is too large for a word. -/
example : build .filc [.append .padding (wordSize - 1), .append .int 8] =
    .error (.overflow .mul) := by
  rfl

end CapFixture.Layout
