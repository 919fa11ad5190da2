import Mathlib.Data.List.Perm.Subperm
import CapFixture.LayoutSet
import CapFixture.Proofs.Layout

/-!
# The order of layouts and their sets

The order of layouts by what it compares, and the members of the sets of layouts that are kept in
this order.

## Main definitions

- `Field.Precedes` — by offset, then kind, then size
- `Layout.Precedes` — field by field, a layout before its extensions
-/

namespace CapFixture

/-! ### The order -/

/-- An earlier offset comes first. At one offset integers come before capabilities and padding
comes last, and at one offset and kind the smaller size comes first. -/
def Field.Precedes (f g : Field) : Prop :=
  f.offset < g.offset ∨
    f.offset = g.offset ∧
      (f.kind.rank < g.kind.rank ∨ f.kind = g.kind ∧ f.size < g.size)

/-- The first field that differs decides, and a layout comes before its extensions. -/
def Layout.Precedes (l k : Layout) : Prop := List.Lex Field.Precedes l.fields k.fields

theorem Field.compare_eq_lt_iff {f g : Field} : compare f g = .lt ↔ Precedes f g := by
  have hcompare : compare f g = (compare f.offset g.offset).then
      ((compare f.kind.rank g.kind.rank).then (compare f.size g.size)) := rfl
  have hkind : f.kind.rank = g.kind.rank ↔ f.kind = g.kind :=
    ⟨Kind.rank_injective, congrArg Kind.rank⟩
  simp only [hcompare, Precedes, Ordering.then_eq_lt, Nat.compare_eq_lt, Nat.compare_eq_eq, hkind]

theorem Field.lex_precedes_iff {fs gs : List Field} :
    compare fs gs = .lt ↔ List.Lex Precedes fs gs := by
  induction fs generalizing gs with
  | nil =>
    cases gs with
    | nil => simp
    | cons g gs => simp
  | cons f fs ih =>
    cases gs with
    | nil => simp
    | cons g gs =>
      rw [List.compare_cons_cons, Ordering.then_eq_lt, Field.compare_eq_lt_iff,
        Std.compare_eq_iff_eq, ih]
      constructor
      · rintro (h | ⟨rfl, h⟩)
        · exact .rel h
        · exact .cons h
      · intro h
        cases h with
        | rel h => exact .inl h
        | cons h => exact .inr ⟨rfl, h⟩

namespace Layout

theorem compare_eq_lt_iff {l k : Layout} : compare l k = .lt ↔ Precedes l k :=
  Field.lex_precedes_iff

theorem Precedes.asymm {l k : Layout} (h : Precedes l k) : ¬ Precedes k l := by
  intro hback
  have hswap : compare l k = (compare k l).swap := Std.OrientedCmp.eq_swap
  rw [compare_eq_lt_iff.mpr h, compare_eq_lt_iff.mpr hback] at hswap
  cases hswap

theorem nodup_of_pairwise_precedes {ls : List Layout} (h : ls.Pairwise Precedes) : ls.Nodup := by
  refine h.imp ?_
  rintro l _ hlt rfl
  exact hlt.asymm hlt

/-- Layouts in order are determined by which they are. -/
theorem eq_of_pairwise_precedes {ls ks : List Layout} (hls : ls.Pairwise Precedes)
    (hks : ks.Pairwise Precedes) (h : ∀ l, l ∈ ls ↔ l ∈ ks) : ls = ks := by
  have hperm : ls.Perm ks := (List.perm_ext_iff_of_nodup (nodup_of_pairwise_precedes hls)
    (nodup_of_pairwise_precedes hks)).mpr h
  exact hperm.eq_of_pairwise (fun _ _ _ _ hlt hgt => absurd hgt hlt.asymm) hls hks

/-! ### Sets of layouts -/

theorem pairwise_precedes_toList (s : LayoutSet) : s.toList.Pairwise Precedes :=
  s.ordered_toList.imp compare_eq_lt_iff.mp

theorem mem_sorted {l : Layout} {ls : List Layout} : l ∈ sorted ls ↔ l ∈ ls := by
  rw [sorted, Std.ExtTreeSet.mem_toList, Std.ExtTreeSet.mem_ofList, List.contains_iff_mem]

theorem possibility?_eq_some_iff {l k : Layout} :
    l.possibility? = some k ↔ l.stripPadding = k ∧ k.fields ≠ [] := by
  unfold possibility?
  by_cases h : l.stripPadding.fields = []
  · rw [if_pos (by simp [isEmpty, h])]
    constructor
    · intro hk; cases hk
    · rintro ⟨rfl, hk⟩; exact absurd h hk
  · rw [if_neg (by simp [isEmpty, h])]
    constructor
    · intro hk; cases hk; exact ⟨rfl, h⟩
    · rintro ⟨rfl, _⟩; rfl

end Layout

end CapFixture
