import Mathlib.Data.List.Forall2

/-!
# Results

When steps in sequence succeed or fail: a bind, and one step for each element of a list.

## Main definitions

- `FailsWith` — a result that is there or is one given error
-/

namespace CapFixture

variable {ε α β : Type}

theorem ok_bind (a : α) (f : α → Except ε β) : (Except.ok a >>= f) = f a := rfl

theorem bind_eq_ok_iff {x : Except ε α} {f : α → Except ε β} {b : β} :
    x >>= f = .ok b ↔ ∃ a, x = .ok a ∧ f a = .ok b := by
  cases x with
  | error e =>
    constructor
    · intro h; cases h
    · rintro ⟨a, ha, _⟩; cases ha
  | ok a =>
    constructor
    · intro h; exact ⟨a, rfl, h⟩
    · rintro ⟨a', ha, hf⟩; cases ha; exact hf

theorem bind_eq_error_iff {x : Except ε α} {f : α → Except ε β} {e : ε} :
    x >>= f = .error e ↔ x = .error e ∨ ∃ a, x = .ok a ∧ f a = .error e := by
  cases x with
  | error e' =>
    constructor
    · intro h; cases h; exact .inl rfl
    · rintro (h | ⟨a, ha, _⟩)
      · cases h; rfl
      · cases ha
  | ok a =>
    constructor
    · intro h; exact .inr ⟨a, rfl, h⟩
    · rintro (h | ⟨a', ha, hf⟩)
      · cases h
      · cases ha; exact hf

theorem exists_eq_ok_of_isOk {x : Except ε α} (h : x.isOk = true) : ∃ a, x = .ok a := by
  cases x with
  | error e => cases h
  | ok a => exact ⟨a, rfl⟩

theorem exists_eq_error_of_isOk {x : Except ε α} (h : x.isOk = false) : ∃ e, x = .error e := by
  cases x with
  | error e => exact ⟨e, rfl⟩
  | ok a => cases h

theorem mapError_eq_ok_iff {ε' : Type} {x : Except ε α} {f : ε → ε'} {a : α} :
    x.mapError f = .ok a ↔ x = .ok a := by
  cases x <;> simp [Except.mapError]

theorem mapM_eq_ok_iff {f : α → Except ε β} {as : List α} {bs : List β} :
    as.mapM f = .ok bs ↔ List.Forall₂ (fun a b => f a = .ok b) as bs := by
  induction as generalizing bs with
  | nil =>
    rw [List.mapM_nil, List.forall₂_nil_left_iff]
    constructor
    · intro h; cases h; rfl
    · rintro rfl; rfl
  | cons a as ih =>
    rw [List.mapM_cons, bind_eq_ok_iff, List.forall₂_cons_left_iff]
    constructor
    · rintro ⟨b, hb, h⟩
      obtain ⟨bs', hbs, h⟩ := bind_eq_ok_iff.mp h
      cases h
      exact ⟨b, bs', hb, ih.mp hbs, rfl⟩
    · rintro ⟨b, bs', hb, hbs, rfl⟩
      exact ⟨b, hb, bind_eq_ok_iff.mpr ⟨bs', ih.mpr hbs, rfl⟩⟩

theorem mapM_eq_ok_iff_map {f : α → Except ε β} {as : List α} {bs : List β} :
    as.mapM f = .ok bs ↔ as.map f = bs.map .ok := by
  rw [mapM_eq_ok_iff, ← List.forall₂_eq_eq_eq, List.forall₂_map_left_iff,
    List.forall₂_map_right_iff]

theorem mapM_eq_ok_map {f : α → Except ε β} {g : α → β} {as : List α}
    (h : ∀ a ∈ as, f a = .ok (g a)) : as.mapM f = .ok (as.map g) := by
  rw [mapM_eq_ok_iff_map, List.map_map]
  exact List.map_congr_left h

theorem exists_mem_of_mapM_eq_ok {f : α → Except ε β} {a : α} {as : List α} {bs : List β}
    (h : as.mapM f = .ok bs) (ha : a ∈ as) : ∃ b ∈ bs, f a = .ok b := by
  have hmem : f a ∈ bs.map .ok := mapM_eq_ok_iff_map.mp h ▸ List.mem_map_of_mem ha
  obtain ⟨b, hb, hfa⟩ := List.mem_map.mp hmem
  exact ⟨b, hb, hfa.symm⟩

/-- There is a result, or it is the one error. -/
def FailsWith (e : ε) (x : Except ε α) : Prop := (∃ a, x = .ok a) ∨ x = .error e

namespace FailsWith

variable {e : ε}

theorem ok (e : ε) (a : α) : FailsWith e (.ok a : Except ε α) := .inl ⟨a, rfl⟩

theorem of_ok {x : Except ε α} (h : ∃ a, x = .ok a) : FailsWith e x := .inl h

theorem bind {x : Except ε α} {f : α → Except ε β} (hx : FailsWith e x)
    (hf : ∀ a, x = .ok a → FailsWith e (f a)) : FailsWith e (x >>= f) := by
  rcases hx with ⟨a, rfl⟩ | rfl
  · exact hf a rfl
  · exact .inr rfl

theorem mapM {f : α → Except ε β} {as : List α} (h : ∀ a ∈ as, FailsWith e (f a)) :
    FailsWith e (as.mapM f) := by
  induction as with
  | nil => exact .ok e []
  | cons a as ih =>
    rw [List.mapM_cons]
    refine (h a (by simp)).bind fun b _ => ?_
    exact (ih fun a' ha' => h a' (by simp [ha'])).bind fun bs _ => .ok e (b :: bs)

end FailsWith

/-- The first of several results that is an error. -/
theorem mapM_eq_error {f : α → Except ε β} {as : List α} {bs : List β} {e : ε}
    {others : List (Except ε β)} (h : as.map f = bs.map .ok ++ .error e :: others) :
    as.mapM f = .error e := by
  induction bs generalizing as with
  | nil =>
    obtain ⟨a, as, rfl, ha, _⟩ := List.map_eq_cons_iff.mp h
    rw [List.mapM_cons, ha]
    rfl
  | cons b bs ih =>
    obtain ⟨a, as, rfl, ha, has⟩ := List.map_eq_cons_iff.mp h
    rw [List.mapM_cons, ha]
    exact bind_eq_error_iff.mpr (.inr ⟨b, rfl, bind_eq_error_iff.mpr (.inl (ih has))⟩)

/-- Results are all there, or there is a first error. -/
theorem forall_ok_or_exists_first_error (results : List (Except ε α)) :
    (∃ as : List α, results = as.map .ok) ∨
      ∃ (as : List α) (e : ε) (others : List (Except ε α)),
        results = as.map .ok ++ .error e :: others := by
  induction results with
  | nil => exact .inl ⟨[], rfl⟩
  | cons result results ih =>
    cases result with
    | error e => exact .inr ⟨[], e, results, rfl⟩
    | ok a =>
      rcases ih with ⟨as, rfl⟩ | ⟨as, e, others, rfl⟩
      · exact .inl ⟨a :: as, rfl⟩
      · exact .inr ⟨a :: as, e, others, rfl⟩

end CapFixture
