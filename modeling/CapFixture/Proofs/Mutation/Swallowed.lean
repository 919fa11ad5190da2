import CapFixture.Proofs.Mutation.Slots
import CapFixture.Proofs.TestProgram.Access

/-!
# What a confused layout has lost

A slot can take up bytes of several integers. Fields are aligned and their sizes divide one
another, so capabilities never collide with a slot, and an integer that collides with it starts in
it.

## Main definitions

- `Layout.Confuses` — one integer of a layout has become its slot
- `Layout.KeepsEnd` — the slot has not cut a layout off at its end
-/

namespace CapFixture

theorem Variant.dvd_of_le : ∀ size ∈ supportedWidths, ∀ width ∈ supportedWidths,
    size ≤ width → size ∣ width := by
  decide

namespace Layout

/-- The layout `k` is `l` with the slot of its integer `f` in place of everything that the slot
collides with. -/
def Confuses (v : Variant) (l : Layout) (f : Field) (k : Layout) : Prop :=
  f.kind = .int ∧ ∃ front back, l.fields = front ++ f :: back ∧
    k = replaced front (slot v f.offset) back

/-- The last field of `l` is still there in `k`, or it is no wider than a slot. -/
def KeepsEnd (v : Variant) (l k : Layout) : Prop :=
  ∀ last ∈ l.fields.getLast?, last ∈ k.fields ∨ last.size ≤ v.capabilityWidth

variable {v : Variant} {l k : Layout} {f g : Field}

theorem mem_iff_exists_confuses {ks : List Layout} (hv : 0 < v.capabilityWidth)
    (hks : l.confusions v = .ok ks) : k ∈ ks ↔ ∃ f, Confuses v l f k := by
  rw [mem_confusions_iff hv hks]
  constructor
  · rintro ⟨front, f, back, hl, hf, hk⟩
    exact ⟨f, hf, front, back, hl, hk⟩
  · rintro ⟨f, hf, front, back, hl, hk⟩
    exact ⟨front, f, back, hl, hf, hk⟩

/-! ### Slots -/

theorem slot_stop (v : Variant) (offset : Nat) :
    (slot v offset).stop = (slot v offset).offset + v.capabilityWidth := rfl

theorem dvd_slot_offset (v : Variant) (offset : Nat) :
    v.capabilityWidth ∣ (slot v offset).offset :=
  Nat.dvd_mul_left _ _

/-- Two multiples of a number are at least that number apart. -/
theorem add_le_of_dvd {d m n : Nat} (hm : d ∣ m) (hn : d ∣ n) (h : m < n) : m + d ≤ n := by
  have hle := Nat.le_of_dvd (Nat.sub_pos_of_lt h) (Nat.dvd_sub hn hm)
  omega

/-- Of a capability width and the size of an integer one divides the other. -/
theorem Solid.dvd_width_or_width_dvd (hv : v.Valid) (hl : Solid v l) (hg : g ∈ l.fields)
    (hkind : g.kind = .int) :
    g.size ≤ v.capabilityWidth ∧ g.size ∣ v.capabilityWidth ∨
      v.capabilityWidth < g.size ∧ v.capabilityWidth ∣ g.size := by
  have hsupported : g.size ∈ Variant.supportedWidths :=
    hv.int_supported g.size (by simpa [Variant.allows, hkind] using hl.allowed g hg)
  rcases Nat.lt_or_ge v.capabilityWidth g.size with hlt | hle
  · exact .inr ⟨hlt, Variant.dvd_of_le _ hv.capability_supported _ hsupported (Nat.le_of_lt hlt)⟩
  · exact .inl ⟨hle, Variant.dvd_of_le _ hsupported _ hv.capability_supported hle⟩

namespace Confuses

theorem mem (h : Confuses v l f k) : f ∈ l.fields := by
  obtain ⟨_, front, back, hl, _⟩ := h
  rw [hl]
  exact List.mem_append_right _ List.mem_cons_self

theorem slot_mem (h : Confuses v l f k) : slot v f.offset ∈ k.fields := by
  obtain ⟨_, front, back, _, rfl⟩ := h
  exact List.mem_append_right _ List.mem_cons_self

variable (hv : v.Valid) (hl : Solid v l) (h : Confuses v l f k)

include hv hl h

/-! ### What is there -/

theorem eq_withSlot : k = l.withSlot v (slot v f.offset).offset := by
  obtain ⟨_, front, back, hfields, rfl⟩ := h
  exact replaced_eq_withSlot hl.toWellFormed hv.capability_pos hfields

theorem overlaps_slot : f.overlaps (slot v f.offset) = true := by
  have hstart := slot_offset_le v f.offset
  have hsize := hl.positive f h.mem
  refine Field.overlaps_iff.mpr ⟨lt_slot_stop hv.capability_pos f.offset, ?_⟩
  rw [Field.stop]
  omega

/-- The bytes of the integer were not those of a capability. -/
theorem slot_not_mem : slot v f.offset ∉ l.fields :=
  Layout.slot_not_mem hl.toWellFormed hv.capability_pos h.mem h.1

/-- A confused layout has the slot and what does not collide with it. -/
theorem mem_iff :
    g ∈ k.fields ↔ g = slot v f.offset ∨ g ∈ l.fields ∧ ¬ g.overlaps (slot v f.offset) := by
  rw [h.eq_withSlot hv hl, mem_withSlot, ← slot_stop]
  refine or_congr_right (and_congr_right fun _ => ?_)
  rw [Field.overlaps_iff]
  omega

/-- The integer that has become a slot is gone. -/
theorem not_mem : f ∉ k.fields := by
  intro hf
  rcases (h.mem_iff hv hl).mp hf with heq | ⟨_, hspared⟩
  · exact h.slot_not_mem hv hl (heq ▸ h.mem)
  · exact hspared (h.overlaps_slot hv hl)

/-- The slot is all that a confused layout adds. -/
theorem filter_not_mem : k.fields.filter (· ∉ l.fields) = [slot v f.offset] := by
  have hslot : (⟨(slot v f.offset).offset, .ptr, v.capabilityWidth⟩ : Field) ∉ l.fields :=
    h.slot_not_mem hv hl
  have hkept : ∀ p : Field → Bool, (l.fields.filter p).filter (· ∉ l.fields) = [] := by
    intro p
    refine List.filter_eq_nil_iff.mpr fun g hg => ?_
    simpa using (List.mem_filter.mp hg).1
  rw [h.eq_withSlot hv hl, withSlot, List.filter_append,
    List.filter_cons_of_pos (by simpa using hslot), hkept, hkept]
  rfl

/-! ### What is lost -/

theorem overlaps_of_not_mem (hg : g ∈ l.fields) (hlost : g ∉ k.fields) :
    g.offset < (slot v f.offset).stop ∧ (slot v f.offset).offset < g.stop := by
  rw [← Field.overlaps_iff]
  by_contra hspared
  exact hlost ((h.mem_iff hv hl).mpr (.inr ⟨hg, hspared⟩))

/-- Capabilities are never lost. A capability of the layout is a slot of its own. -/
theorem mem_of_kind_eq_ptr (hg : g ∈ l.fields) (hkind : g.kind = .ptr) : g ∈ k.fields := by
  by_contra hlost
  obtain ⟨hbefore, hafter⟩ := h.overlaps_of_not_mem hv hl hg hlost
  have hsize : g.size = v.capabilityWidth := by
    simpa [Variant.allows, hkind] using hl.allowed g hg
  have haligned : v.capabilityWidth ∣ g.offset := hsize ▸ hl.dvd_offset hg
  have hslot := dvd_slot_offset v f.offset
  rw [slot_stop] at hbefore
  rw [Field.stop, hsize] at hafter
  -- aligned to the width of both, they overlap only where they are the same
  rcases Nat.lt_trichotomy g.offset (slot v f.offset).offset with hlt | heq | hlt
  · have hgap := add_le_of_dvd haligned hslot hlt
    omega
  · have hsame : slot v f.offset = g := by
      cases g
      simp_all [slot]
    exact h.slot_not_mem hv hl (hsame ▸ hg)
  · have hgap := add_le_of_dvd hslot haligned hlt
    omega

theorem kind_of_not_mem (hg : g ∈ l.fields) (hlost : g ∉ k.fields) : g.kind = .int := by
  cases hkind : g.kind with
  | int => rfl
  | ptr => exact absurd (h.mem_of_kind_eq_ptr hv hl hg hkind) hlost
  | padding => exact absurd hkind (hl.solid g hg)

/-- An integer that is lost starts in the slot. -/
theorem slot_offset_le_of_not_mem (hg : g ∈ l.fields) (hlost : g ∉ k.fields) :
    (slot v f.offset).offset ≤ g.offset := by
  by_contra hstart
  obtain ⟨-, hafter⟩ := h.overlaps_of_not_mem hv hl hg hlost
  have hslot := slot_offset_le v f.offset
  have hstop := lt_slot_stop hv.capability_pos f.offset
  -- an integer that starts before the slot stops before the one that has become it
  have hgf : g.stop ≤ f.offset := by
    rcases hl.apart hg h.mem (by rintro rfl; omega) with hgf | hfg
    · exact hgf
    · have hsize := hl.positive f h.mem
      rw [Field.stop] at hfg
      omega
  have haligned := hl.dvd_offset hg
  have hslotAligned := dvd_slot_offset v f.offset
  rw [slot_stop] at hstop
  rw [Field.stop] at hafter hgf
  rcases hl.dvd_width_or_width_dvd hv hg (h.kind_of_not_mem hv hl hg hlost) with
    ⟨_, hdvd⟩ | ⟨_, hdvd⟩
  · have hgap := add_le_of_dvd haligned (Nat.dvd_trans hdvd hslotAligned) (by omega)
    omega
  · have hgap := add_le_of_dvd hslotAligned (Nat.dvd_add (Nat.dvd_trans hdvd haligned) hdvd) hafter
    omega

/-! ### Confused layouts are layouts -/

theorem disjoint : k.fields.Pairwise fun g other => g.stop ≤ other.offset := by
  rw [h.eq_withSlot hv hl]
  exact disjoint_withSlot hl.toWellFormed v _

theorem solid : Solid v k where
  allowed := by
    intro g hg
    rcases (h.mem_iff hv hl).mp hg with rfl | ⟨hg, _⟩
    · simp [slot, Variant.allows]
    · exact hl.allowed g hg
  positive := by
    intro g hg
    rcases (h.mem_iff hv hl).mp hg with rfl | ⟨hg, _⟩
    · exact hv.capability_pos
    · exact hl.positive g hg
  aligned := by
    intro g hg hsolid
    rcases (h.mem_iff hv hl).mp hg with rfl | ⟨hg, _⟩
    · exact dvd_slot_offset v f.offset
    · exact hl.aligned g hg hsolid
  disjoint := h.disjoint hv hl
  solid := by
    intro g hg
    rcases (h.mem_iff hv hl).mp hg with rfl | ⟨hg, _⟩
    · exact Kind.noConfusion
    · exact hl.solid g hg

/-- Two layouts are not confused layouts of one another, as each would have a capability more than
the other. -/
theorem asymm : ¬ Confuses v k g l := fun hback =>
  h.slot_not_mem hv hl (hback.mem_of_kind_eq_ptr hv (h.solid hv hl) h.slot_mem rfl)

/-! ### How far a confused layout reaches -/

/-- Where the slot has taken the place of a wider last field, nothing reaches as far as that. -/
theorem total_lt_stop {last : Field} (hlast : last ∈ l.fields.getLast?) (hlost : last ∉ k.fields)
    (hwide : v.capabilityWidth < last.size) : k.total < last.stop := by
  have hmem := List.mem_of_getLast? hlast
  have hstart := h.slot_offset_le_of_not_mem hv hl hmem hlost
  -- the other fields stop before the last one, and the slot stops within it
  have hbound : ∀ g ∈ k.fields, g.stop ≤ last.offset + v.capabilityWidth := by
    intro g hg
    rcases (h.mem_iff hv hl).mp hg with rfl | ⟨hgl, _⟩
    · rw [slot_stop]
      omega
    · have hgap := hl.apart hgl hmem (by rintro rfl; exact hlost hg)
      have hend := hl.stop_le_total hgl
      have hsize := hl.positive g hgl
      rw [total_of_mem_getLast? hlast, Field.stop] at hend
      rw [Field.stop] at hgap ⊢
      omega
  calc k.total ≤ last.offset + v.capabilityWidth := (within_of_stop_le hbound).1
    _ < last.stop := Nat.add_lt_add_left hwide _

theorem stop_le_total_of_not_mem (hg : g ∈ l.fields) (hlost : g ∉ k.fields)
    (hsize : g.size ≤ v.capabilityWidth) : g.stop ≤ k.total := by
  have hkind := h.kind_of_not_mem hv hl hg hlost
  obtain ⟨hend, -⟩ := h.overlaps_of_not_mem hv hl hg hlost
  have hdvd : g.size ∣ v.capabilityWidth := by
    rcases hl.dvd_width_or_width_dvd hv hg hkind with ⟨_, hdvd⟩ | ⟨hwide, _⟩
    · exact hdvd
    · omega
  have haligned : g.size ∣ (slot v f.offset).stop :=
    Nat.dvd_add (Nat.dvd_trans hdvd (dvd_slot_offset v f.offset)) hdvd
  calc g.stop ≤ (slot v f.offset).stop := add_le_of_dvd (hl.dvd_offset hg) haligned hend
    _ ≤ k.total := (h.solid hv hl).stop_le_total h.slot_mem

/-- Whether a confused layout reaches as far as the layout depends on the last field alone. -/
theorem forall_stop_le_total_iff : (∀ g ∈ l.fields, g.stop ≤ k.total) ↔ KeepsEnd v l k := by
  constructor
  · intro hstops last hlast
    by_contra hcut
    obtain ⟨hlost, hwide⟩ := not_or.mp hcut
    have hstop := hstops last (List.mem_of_getLast? hlast)
    have hlt := h.total_lt_stop hv hl hlast hlost (by omega)
    omega
  · intro hkeeps g hg
    have hnonempty := List.getLast?_isSome.mpr (List.ne_nil_of_mem hg)
    obtain ⟨last, hlast⟩ := Option.isSome_iff_exists.mp hnonempty
    have hmem := List.mem_of_getLast? hlast
    have hstop : last.stop ≤ k.total := by
      by_cases hstays : last ∈ k.fields
      · exact (h.solid hv hl).stop_le_total hstays
      · exact h.stop_le_total_of_not_mem hv hl hmem hstays ((hkeeps last hlast).resolve_left hstays)
    calc g.stop ≤ l.total := hl.stop_le_total hg
      _ = last.stop := total_of_mem_getLast? hlast
      _ ≤ k.total := hstop

end Confuses

end Layout

end CapFixture
