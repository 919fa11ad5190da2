import CapFixture.Proofs.Enumeration.Operations

/-!
# Words of moves

A word of moves makes a layout by one append after the other. The search collects what is left
without padding of the layouts that words make whose last move crosses the limit, and it collects
all of them.

## Main definitions

- `Enumeration.spell` — the layout that a word of moves makes
- `Enumeration.Crossing` — the words that cross the limit with their last move
-/

namespace CapFixture.Enumeration

variable {v : Variant} {l next last : Layout} {move : Kind × Nat} {word : List (Kind × Nat)}

/-- The layout that the moves of a word make of another one. -/
def spell (v : Variant) (l : Layout) (word : List (Kind × Nat)) : Except Fault Layout :=
  word.foldlM (fun l move => l.append v move.1 move.2) l

/-- The word makes a layout that ends past the limit, and before its last move it does not. -/
structure Crossing (v : Variant) (word : List (Kind × Nat)) (last : Layout) : Prop where
  moves : ∀ move ∈ word, move ∈ moves v
  spells : spell v .empty word = .ok last
  past : v.byteLimit < last.total
  within : ∀ front, front <+: word → front ≠ word →
    ∃ l, spell v .empty front = .ok l ∧ l.total ≤ v.byteLimit

theorem spell_cons_eq_ok_iff :
    spell v l (move :: word) = .ok last ↔
      ∃ next, l.append v move.1 move.2 = .ok next ∧ spell v next word = .ok last := by
  rw [spell, List.foldlM_cons, bind_eq_ok_iff]
  rfl

/-! ### Walks -/

theorem walk_nil_iff : Walk v l [] last ↔ last = l := by
  constructor
  · intro hw
    cases hw
    rfl
  · rintro rfl
    exact .stop last

theorem walk_cons_iff :
    Walk v l (move :: word) last ↔ l.total ≤ v.byteLimit ∧ move ∈ moves v ∧
      ∃ next, l.append v move.1 move.2 = .ok next ∧ Walk v next word last := by
  constructor
  · intro hw
    cases hw with
    | move hl hm hn hw => exact ⟨hl, hm, _, hn, hw⟩
  · rintro ⟨hl, hm, next, hn, hw⟩
    exact .move hl hm hn hw

/-- A walk spells its last layout, and before that only layouts that end within the limit. -/
theorem walk_iff_spell :
    Walk v l word last ↔ (∀ move ∈ word, move ∈ moves v) ∧ spell v l word = .ok last ∧
      ∀ front, front <+: word → front ≠ word →
        ∃ m, spell v l front = .ok m ∧ m.total ≤ v.byteLimit := by
  induction word generalizing l with
  | nil =>
    rw [walk_nil_iff]
    constructor
    · rintro rfl
      refine ⟨by simp, rfl, fun front hfront hne => ?_⟩
      exact absurd (List.prefix_nil.mp hfront) hne
    · rintro ⟨_, hlast, _⟩
      exact (Except.ok.inj hlast).symm
  | cons move word ih =>
    rw [walk_cons_iff, List.forall_mem_cons, spell_cons_eq_ok_iff]
    constructor
    · rintro ⟨hl, hm, next, hn, hw⟩
      obtain ⟨hmoves, hspell, hwithin⟩ := ih.mp hw
      refine ⟨⟨hm, hmoves⟩, ⟨next, hn, hspell⟩, fun front hfront hne => ?_⟩
      rcases List.prefix_cons_iff.mp hfront with rfl | ⟨front, rfl, hfront⟩
      · exact ⟨l, rfl, hl⟩
      · have hfront := (List.prefix_cons_inj move).mp hfront
        obtain ⟨m, hm, htotal⟩ := hwithin front hfront fun heq => hne (heq ▸ rfl)
        exact ⟨m, spell_cons_eq_ok_iff.mpr ⟨next, hn, hm⟩, htotal⟩
    · rintro ⟨⟨hm, hmoves⟩, ⟨next, hn, hspell⟩, hwithin⟩
      -- the empty word comes before every other one
      obtain ⟨m, hl, htotal⟩ := hwithin [] List.nil_prefix (List.cons_ne_nil _ _).symm
      obtain rfl : l = m := Except.ok.inj hl
      refine ⟨htotal, hm, next, hn, ih.mpr ⟨hmoves, hspell, fun front hfront hne => ?_⟩⟩
      obtain ⟨m, hm, htotal⟩ := hwithin (move :: front) ((List.prefix_cons_inj move).mpr hfront)
        fun heq => hne (List.cons.inj heq).2
      obtain ⟨next', hn', hm⟩ := spell_cons_eq_ok_iff.mp hm
      obtain rfl : next = next' := Except.ok.inj (hn.symm.trans hn')
      exact ⟨m, hm, htotal⟩

theorem crossing_iff_walk :
    Crossing v word last ↔ Walk v .empty word last ∧ v.byteLimit < last.total := by
  rw [walk_iff_spell]
  constructor
  · intro h
    exact ⟨⟨h.moves, h.spells, h.within⟩, h.past⟩
  · rintro ⟨⟨hmoves, hspells, hwithin⟩, hpast⟩
    exact ⟨hmoves, hspells, hpast, hwithin⟩

/-! ### What the search collects -/

end CapFixture.Enumeration
