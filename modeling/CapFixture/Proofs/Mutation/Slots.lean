import Mathlib.Data.List.Dedup
import CapFixture.Proofs.Mutation

/-!
# One confused layout for each slot

Which confused layout an integer gives depends on its slot alone: the slot replaces every field
that has a byte in it. Integers of one slot give the same confused layout, and integers of
different slots give different ones. The capability width need not be one that the layout was
built for, so a slot may cut through fields of any kind.

## Main definitions

- `Layout.slotStarts` — where the slots start that have the start of an integer
- `Layout.withSlot` — the layout with a capability in a slot
- `Layout.Overruns` — a slot is compared with a field by an end that no word holds
-/

namespace CapFixture.Layout

variable {u v : Variant} {l : Layout} {front back : List Field} {f g : Field} {start start' : Nat}

/-- Where the slot of each integer starts. -/
def slotStarts (v : Variant) (l : Layout) : List Nat :=
  (l.fields.filter (·.kind = .int)).map fun f => f.offset / v.capabilityWidth * v.capabilityWidth

/-- The layout with a capability at `start`, between the fields that stop before it and those that
start after it. -/
def withSlot (v : Variant) (l : Layout) (start : Nat) : Layout :=
  ⟨l.fields.filter (·.stop ≤ start) ++
    ⟨start, .ptr, v.capabilityWidth⟩ :: l.fields.filter (start + v.capabilityWidth ≤ ·.offset)⟩

theorem mem_slotStarts :
    start ∈ l.slotStarts v ↔ ∃ f ∈ l.fields, f.kind = .int ∧ (slot v f.offset).offset = start := by
  simp [slotStarts, slot, and_assoc]

/-! ### Layouts with a slot -/

theorem mem_withSlot :
    g ∈ (l.withSlot v start).fields ↔ g = ⟨start, .ptr, v.capabilityWidth⟩ ∨
      g ∈ l.fields ∧ (g.stop ≤ start ∨ start + v.capabilityWidth ≤ g.offset) := by
  simp only [withSlot, List.mem_append, List.mem_cons, List.mem_filter, decide_eq_true_eq]
  tauto

/-- A field stops before the slot or starts after it if it has no byte of the slot. -/
theorem outside_slot_iff (hv : 0 < v.capabilityWidth) (hg : 0 < g.size) :
    g.stop ≤ start ∨ start + v.capabilityWidth ≤ g.offset ↔
      ∀ byte, g.offset ≤ byte → byte < g.stop →
        ¬ (start ≤ byte ∧ byte < start + v.capabilityWidth) := by
  constructor
  · omega
  · intro hbytes
    by_contra hclose
    obtain ⟨hstop, hoffset⟩ := not_or.mp hclose
    -- the later of the two starts is a byte of both
    have hbyte := hbytes (max g.offset start)
    rw [Field.stop] at hstop hbyte
    omega

theorem disjoint_withSlot (hl : WellFormed u l) (v : Variant) (start : Nat) :
    (l.withSlot v start).fields.Pairwise fun f g => f.stop ≤ g.offset := by
  refine List.pairwise_append.mpr ⟨hl.disjoint.filter _, ?_, ?_⟩
  · refine List.pairwise_cons.mpr ⟨fun g hg => ?_, hl.disjoint.filter _⟩
    exact of_decide_eq_true (List.mem_filter.mp hg).2
  · intro f hf g hg
    have hbefore : f.stop ≤ start := of_decide_eq_true (List.mem_filter.mp hf).2
    rcases List.mem_cons.mp hg with rfl | hg
    · exact hbefore
    · have hafter : start + v.capabilityWidth ≤ g.offset :=
        of_decide_eq_true (List.mem_filter.mp hg).2
      omega

/-! ### Integers and their slots -/

theorem pairwise_precedes_confusions {ks : List Layout} (hks : l.confusions v = .ok ks) :
    ks.Pairwise Precedes := by
  obtain ⟨others, _, hothers⟩ := bind_eq_ok_iff.mp hks
  cases hothers
  exact pairwise_precedes_toList _

theorem slot_offset_le (v : Variant) (offset : Nat) : (slot v offset).offset ≤ offset :=
  Nat.div_mul_le_self _ _

theorem lt_slot_stop (hv : 0 < v.capabilityWidth) (offset : Nat) :
    offset < (slot v offset).stop :=
  Nat.lt_div_mul_add hv

/-- The first byte of an integer is not one of a capability. -/
theorem slot_not_mem (hl : WellFormed u l) (hv : 0 < v.capabilityWidth) (hf : f ∈ l.fields)
    (hint : f.kind = .int) : slot v f.offset ∉ l.fields := by
  intro hslot
  have hne : slot v f.offset ≠ f := by
    intro heq
    have hkind : Kind.ptr = f.kind := congrArg Field.kind heq
    rw [hint] at hkind
    cases hkind
  have hstart := slot_offset_le v f.offset
  have hstop := lt_slot_stop hv f.offset
  have hsize := hl.positive f hf
  rcases hl.apart hslot hf hne with hbefore | hafter
  · omega
  · rw [Field.stop] at hafter
    omega

/-- A field that stops before something in the slot is spared if it stops before the slot. -/
theorem keeps_iff_of_stop_lt {c : Field} (hg : 0 < g.size) (h : g.stop < c.stop) :
    keeps c g = true ↔ g.stop ≤ c.offset := by
  have hne : g ≠ c := fun heq => Nat.ne_of_lt h (congrArg Field.stop heq)
  have hoffset : g.offset < g.stop := Nat.lt_add_of_pos_right hg
  simp only [keeps, Field.overlaps, Bool.or_eq_true, beq_iff_eq, hne, false_or, Bool.not_eq_true',
    Bool.and_eq_false_iff, decide_eq_false_iff_not]
  omega

/-- A field that starts after something in the slot is spared if it starts after the slot. -/
theorem keeps_iff_of_lt_offset {c : Field} (h : c.offset < g.offset) :
    keeps c g = true ↔ c.stop ≤ g.offset := by
  have hne : g ≠ c := fun heq => Nat.ne_of_lt h (congrArg Field.offset heq.symm)
  have hstop : g.offset ≤ g.stop := Nat.le_add_right _ _
  simp only [keeps, Field.overlaps, Bool.or_eq_true, beq_iff_eq, hne, false_or, Bool.not_eq_true',
    Bool.and_eq_false_iff, decide_eq_false_iff_not]
  omega

theorem apart_of_eq_append (hl : WellFormed u l) (hfields : l.fields = front ++ f :: back) :
    (∀ g ∈ front, g.stop ≤ f.offset) ∧ ∀ g ∈ back, f.stop ≤ g.offset := by
  have hdisjoint := hl.disjoint
  rw [hfields] at hdisjoint
  obtain ⟨_, hrest, hbefore⟩ := List.pairwise_append.mp hdisjoint
  exact ⟨fun g hg => hbefore g hg f List.mem_cons_self, (List.pairwise_cons.mp hrest).1⟩

theorem filter_keeps_front (hl : WellFormed u l) (hv : 0 < v.capabilityWidth)
    (hfields : l.fields = front ++ f :: back) :
    front.filter (keeps (slot v f.offset)) =
      l.fields.filter (·.stop ≤ (slot v f.offset).offset) := by
  obtain ⟨hbefore, hafter⟩ := apart_of_eq_append hl hfields
  have hstart := slot_offset_le v f.offset
  have hstop := lt_slot_stop hv f.offset
  have hpositive : ∀ g ∈ front ++ f :: back, g.offset < g.stop := fun g hg =>
    Nat.lt_add_of_pos_right (hl.positive g (hfields ▸ hg))
  have hnone : (f :: back).filter (·.stop ≤ (slot v f.offset).offset) = [] := by
    refine List.filter_eq_nil_iff.mpr fun g hg => ?_
    have hg' := hpositive g (List.mem_append_right _ hg)
    rw [decide_eq_true_eq]
    rcases List.mem_cons.mp hg with rfl | hg
    · omega
    · have hfg := hafter g hg
      have hf := hpositive f (by simp)
      omega
  rw [hfields, List.filter_append, hnone, List.append_nil]
  refine List.filter_congr fun g hg => ?_
  have hgf := hbefore g hg
  rw [Bool.eq_iff_iff, decide_eq_true_eq]
  exact keeps_iff_of_stop_lt (hl.positive g (by simp [hfields, hg])) (by omega)

theorem filter_keeps_back (hl : WellFormed u l) (hv : 0 < v.capabilityWidth)
    (hfields : l.fields = front ++ f :: back) :
    back.filter (keeps (slot v f.offset)) =
      l.fields.filter ((slot v f.offset).offset + v.capabilityWidth ≤ ·.offset) := by
  obtain ⟨hbefore, hafter⟩ := apart_of_eq_append hl hfields
  have hstart := slot_offset_le v f.offset
  have hstop : f.offset < (slot v f.offset).offset + v.capabilityWidth := lt_slot_stop hv f.offset
  have hnone : (front ++ [f]).filter
      ((slot v f.offset).offset + v.capabilityWidth ≤ ·.offset) = [] := by
    refine List.filter_eq_nil_iff.mpr fun g hg => ?_
    rw [decide_eq_true_eq]
    rcases List.mem_append.mp hg with hg | hg
    · have hgf := hbefore g hg
      have hle : g.offset ≤ g.stop := Nat.le_add_right _ _
      omega
    · rw [List.mem_singleton.mp hg]
      omega
  rw [hfields, List.append_cons, List.filter_append, hnone, List.nil_append]
  refine List.filter_congr fun g hg => ?_
  have hfg := hafter g hg
  have hf : f.offset < f.stop := Nat.lt_add_of_pos_right (hl.positive f (by simp [hfields]))
  rw [Bool.eq_iff_iff, decide_eq_true_eq]
  exact keeps_iff_of_lt_offset (by omega)

/-- What is spared does not depend on which of the fields in the slot has become the capability. -/
theorem replaced_eq_withSlot (hl : WellFormed u l) (hv : 0 < v.capabilityWidth)
    (hfields : l.fields = front ++ f :: back) :
    replaced front (slot v f.offset) back = l.withSlot v (slot v f.offset).offset := by
  rw [replaced, filter_keeps_front hl hv hfields, filter_keeps_back hl hv hfields]
  rfl

/-! ### The confused layouts of a layout -/

theorem withSlot_ne (hl : WellFormed u l) (hv : 0 < v.capabilityWidth)
    (hstart : start ∈ l.slotStarts v) : l.withSlot v start ≠ l := by
  obtain ⟨f, hf, hint, rfl⟩ := mem_slotStarts.mp hstart
  intro heq
  have hslot : slot v f.offset ∈ (l.withSlot v (slot v f.offset).offset).fields :=
    mem_withSlot.mpr (.inl rfl)
  rw [heq] at hslot
  exact slot_not_mem hl hv hf hint hslot

/-- The slot is the one capability at its place, so it can be told from the layout. -/
theorem withSlot_inj (hl : WellFormed u l) (hv : 0 < v.capabilityWidth)
    (hstart : start ∈ l.slotStarts v) (heq : l.withSlot v start = l.withSlot v start') :
    start = start' := by
  obtain ⟨f, hf, hint, rfl⟩ := mem_slotStarts.mp hstart
  have hslot : slot v f.offset ∈ (l.withSlot v (slot v f.offset).offset).fields :=
    mem_withSlot.mpr (.inl rfl)
  rw [heq] at hslot
  rcases mem_withSlot.mp hslot with hsame | ⟨hmem, _⟩
  · exact congrArg Field.offset hsame
  · exact absurd hmem (slot_not_mem hl hv hf hint)

/-- Where there are confused layouts, they are those with a capability in the slot of an integer. -/
theorem mem_confusions_iff_withSlot (hl : WellFormed u l) (hv : 0 < v.capabilityWidth)
    {ks : List Layout} (hks : l.confusions v = .ok ks) {k : Layout} :
    k ∈ ks ↔ ∃ start ∈ l.slotStarts v, l.withSlot v start = k := by
  rw [mem_confusions_iff hv hks]
  constructor
  · rintro ⟨front, f, back, hfields, hint, rfl⟩
    have hf : f ∈ l.fields := by simp [hfields]
    exact ⟨_, mem_slotStarts.mpr ⟨f, hf, hint, rfl⟩, (replaced_eq_withSlot hl hv hfields).symm⟩
  · rintro ⟨start, hstart, rfl⟩
    obtain ⟨f, hf, hint, rfl⟩ := mem_slotStarts.mp hstart
    obtain ⟨front, back, hfields⟩ := List.append_of_mem hf
    exact ⟨front, f, back, hfields, hint, (replaced_eq_withSlot hl hv hfields).symm⟩

/-! ### Ends that no word holds -/

/-- Some slot is compared with another field by an end that no word holds. The end of the slot is
looked at first, and then that of the field if it starts before. -/
def Overruns (v : Variant) (l : Layout) : Prop :=
  ∃ f ∈ l.fields, f.kind = .int ∧ ∃ g ∈ l.fields, g ≠ f ∧
    (wordSize ≤ (slot v f.offset).stop ∨
      g.offset < (slot v f.offset).stop ∧ wordSize ≤ g.stop)

/-- The other fields of a layout are those in front of one and those behind it. -/
theorem mem_front_or_back_iff (hl : WellFormed u l) (hfields : l.fields = front ++ f :: back) :
    g ∈ front ++ back ↔ g ∈ l.fields ∧ g ≠ f := by
  have hnodup := hl.nodup
  rw [hfields, List.nodup_middle, List.nodup_cons] at hnodup
  rw [hfields, List.mem_append, List.mem_append, List.mem_cons]
  constructor
  · rintro hg
    refine ⟨hg.imp_right .inr, ?_⟩
    rintro rfl
    exact hnodup.1 (List.mem_append.mpr hg)
  · rintro ⟨hg | rfl | hg, hne⟩
    · exact .inl hg
    · exact absurd rfl hne
    · exact .inr hg

theorem not_overruns_iff (hl : WellFormed u l) (hv : 0 < v.capabilityWidth) :
    ¬ l.Overruns v ↔ ∀ front f back, l.fields = front ++ f :: back →
      Confusable v front f back := by
  constructor
  · intro hfits front f back hfields hint g hg
    obtain ⟨hmem, hne⟩ := (mem_front_or_back_iff hl hfields).mp hg
    have hf : f ∈ l.fields := by simp [hfields]
    by_contra hnot
    obtain ⟨_, hends⟩ := not_or.mp hnot
    refine hfits ⟨f, hf, hint, g, hmem, hne, ?_⟩
    by_contra hsmall
    obtain ⟨hslot, hother⟩ := not_or.mp hsmall
    refine hends ⟨Nat.lt_of_not_le hslot, fun hbefore => Nat.lt_of_not_le fun hlarge => ?_⟩
    exact hother ⟨hbefore, hlarge⟩
  · rintro hfits ⟨f, hf, hint, g, hg, hne, hlarge⟩
    obtain ⟨front, back, hfields⟩ := List.append_of_mem hf
    rcases hfits front f back hfields hint g
      ((mem_front_or_back_iff hl hfields).mpr ⟨hg, hne⟩) with rfl | ⟨hslot, hother⟩
    · exact slot_not_mem hl hv hf hint hg
    · rcases hlarge with hlarge | ⟨hbefore, hlarge⟩
      · omega
      · exact Nat.not_lt_of_le hlarge (hother hbefore)

/-- The slot of an integer at the end of all words would stop where no word reaches. -/
example : (build .filc [.append .padding (wordSize - 8), .append .int 8] >>= confusions .wide) =
    .error (.overflow .add) := by rfl

end CapFixture.Layout
