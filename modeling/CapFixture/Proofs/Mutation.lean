import CapFixture.Mutation
import CapFixture.Proofs.LayoutSet
import CapFixture.Proofs.Results

/-!
# What confusing a layout yields

The confused layouts of a layout are those in which one of its integers has become the capability
slot that it starts in. They have no other fields than that slot and fields of the layout. Ends of
fields are compared on the way, and where no word holds one of them there are no confused layouts.

## Main definitions

- `Layout.slot` — the capability slot of an offset
- `Layout.replaced` — the fields with a capability between them and without those it collides with
- `Layout.Comparable` — words hold the ends that a field and a capability are compared by
- `Layout.Roomy` — words hold the ends of all fields and of all slots of integers
-/

namespace CapFixture.Layout

variable {v : Variant} {l k : Layout} {before after rest : List Field} {f g : Field}

/-- The slot of capability width that the offset lies in. -/
def slot (v : Variant) (offset : Nat) : Field :=
  ⟨offset / v.capabilityWidth * v.capabilityWidth, .ptr, v.capabilityWidth⟩

/-- Where capabilities have a width, every slot passes the checks of a field. -/
theorem slotOf_eq (hv : 0 < v.capabilityWidth) (offset : Nat) :
    slotOf v offset = .ok (slot v offset) := by
  have hallowed : v.allows .ptr v.capabilityWidth = true := by simp [Variant.allows]
  rw [slotOf, if_neg (Nat.ne_of_gt hv), Field.make, if_neg (by simp [hallowed]),
    if_neg (by decide), if_neg (Nat.ne_of_gt hv), if_neg (by simp)]
  rfl

/-- A slot starts at the offset or before. -/
theorem slot_stop_le (v : Variant) (offset : Nat) :
    (slot v offset).stop ≤ offset + v.capabilityWidth :=
  Nat.add_le_add_right (Nat.div_mul_le_self _ _) _

/-! ### What is spared -/

/-- Whether a field stays where the capability has been put. -/
def keeps (capability f : Field) : Bool := f == capability || !f.overlaps capability

/-- The fields with `capability` between them and without those it collides with. -/
def replaced (before : List Field) (capability : Field) (after : List Field) : Layout :=
  ⟨before.filter (keeps capability) ++ capability :: after.filter (keeps capability)⟩

/-- The field is the capability, or words hold the ends by which the two are compared. -/
def Comparable (capability f : Field) : Prop :=
  f = capability ∨
    capability.stop < wordSize ∧ (f.offset < capability.stop → f.stop < wordSize)

theorem spared_of_comparable (h : Comparable f g) : spared f g = .ok (keeps f g) := by
  unfold spared keeps
  by_cases heq : g = f
  · simp [heq]
    rfl
  · obtain ⟨hstop, hother⟩ := h.resolve_left heq
    rw [if_neg heq, Field.wordOverlaps, Field.wordStop, Arithmetic.checked_of_lt hstop, ok_bind]
    by_cases hbefore : g.offset < f.stop
    · rw [if_pos hbefore, Field.wordStop, Arithmetic.checked_of_lt (hother hbefore)]
      simp [Field.overlaps, heq, hbefore, bind, Except.bind, pure, Except.pure]
    · simp [Field.overlaps, hbefore, bind, Except.bind, pure, Except.pure]

theorem spared_of_not_comparable (h : ¬ Comparable f g) :
    spared f g = .error (.overflow .add) := by
  obtain ⟨heq, hends⟩ := not_or.mp h
  rw [spared, if_neg heq, Field.wordOverlaps, Field.wordStop]
  rcases Nat.lt_or_ge f.stop wordSize with hstop | hstop
  · have hother : g.offset < f.stop ∧ wordSize ≤ g.stop := by
      by_contra hnone
      exact hends ⟨hstop, fun hbefore => by omega⟩
    rw [Arithmetic.checked_of_lt hstop, ok_bind, if_pos hother.1, Field.wordStop,
      Arithmetic.checked_of_le hother.2]
    rfl
  · rw [Arithmetic.checked_of_le hstop]
    rfl

theorem sparedOf_of_comparable {fields : List Field} (h : ∀ g ∈ fields, Comparable f g) :
    sparedOf f fields = .ok (fields.filter (keeps f)) := by
  induction fields with
  | nil => rfl
  | cons g fields ih =>
    rw [sparedOf, spared_of_comparable (h g (by simp)), ih fun g' hg' => h g' (by simp [hg']),
      List.filter_cons]
    rfl

theorem sparedOf_of_not_comparable {fields : List Field} (h : ∃ g ∈ fields, ¬ Comparable f g) :
    sparedOf f fields = .error (.overflow .add) := by
  induction fields with
  | nil =>
    obtain ⟨g, hg, _⟩ := h
    cases hg
  | cons g fields ih =>
    by_cases hg : Comparable f g
    · obtain ⟨other, hother, hnot⟩ := h
      have hrest : other ∈ fields :=
        (List.mem_cons.mp hother).resolve_left fun heq => hnot (heq ▸ hg)
      rw [sparedOf, spared_of_comparable hg, ih ⟨other, hrest, hnot⟩]
      rfl
    · rw [sparedOf, spared_of_not_comparable hg]
      rfl

theorem confuse_of_comparable (h : ∀ g ∈ before ++ after, Comparable f g) :
    confuse before f after = .ok (replaced before f after) := by
  obtain ⟨hbefore, hafter⟩ := List.forall_mem_append.mp h
  rw [confuse, sparedOf_of_comparable hbefore, sparedOf_of_comparable hafter]
  rfl

theorem confuse_of_not_comparable (h : ∃ g ∈ before ++ after, ¬ Comparable f g) :
    confuse before f after = .error (.overflow .add) := by
  rw [confuse]
  by_cases hbefore : ∀ g ∈ before, Comparable f g
  · obtain ⟨g, hg, hnot⟩ := h
    have hafter : g ∈ after := (List.mem_append.mp hg).resolve_left fun hg => hnot (hbefore g hg)
    rw [sparedOf_of_comparable hbefore, sparedOf_of_not_comparable ⟨g, hafter, hnot⟩]
    rfl
  · push Not at hbefore
    rw [sparedOf_of_not_comparable hbefore]
    rfl

/-! ### The confused layouts -/

/-- If the field between these is an integer, it can be compared with them as a capability. -/
def Confusable (v : Variant) (front : List Field) (f : Field) (back : List Field) : Prop :=
  f.kind = .int → ∀ g ∈ front ++ back, Comparable (slot v f.offset) g

theorem exists_confusionsFrom (hv : 0 < v.capabilityWidth) (before rest : List Field)
    (hfits : ∀ front f back, rest = front ++ f :: back → Confusable v (before ++ front) f back) :
    ∃ ks, confusionsFrom v before rest = .ok ks ∧
      ∀ k, k ∈ ks ↔ ∃ front f back, rest = front ++ f :: back ∧ f.kind = .int ∧
        k = replaced (before ++ front) (slot v f.offset) back := by
  induction rest generalizing before with
  | nil => exact ⟨[], rfl, by simp⟩
  | cons g rest ih =>
    have hrest : ∀ front f back, rest = front ++ f :: back →
        Confusable v (before ++ [g] ++ front) f back := by
      rintro front f back rfl
      simpa using hfits (g :: front) f back rfl
    obtain ⟨ks, hks, hmem⟩ := ih (before ++ [g]) hrest
    -- An integer further back has `g` before it.
    have hothers : ∀ k, k ∈ ks ↔ ∃ front f back, rest = front ++ f :: back ∧ f.kind = .int ∧
        k = replaced (before ++ g :: front) (slot v f.offset) back := by
      simpa only [List.append_assoc, List.singleton_append] using hmem
    by_cases hint : g.kind = .int
    · refine ⟨replaced before (slot v g.offset) rest :: ks, ?_, fun k => ?_⟩
      · have hg : ∀ other ∈ before ++ rest, Comparable (slot v g.offset) other := by
          simpa using hfits [] g rest rfl hint
        rw [confusionsFrom, if_pos hint, slotOf_eq hv, hks, ok_bind, confuse_of_comparable hg]
        rfl
      · rw [List.mem_cons, hothers]
        constructor
        · rintro (rfl | ⟨front, f, back, rfl, hf, rfl⟩)
          · exact ⟨[], g, rest, rfl, hint, by rw [List.append_nil]⟩
          · exact ⟨g :: front, f, back, rfl, hf, rfl⟩
        · rintro ⟨front, f, back, hrest, hf, rfl⟩
          cases front with
          | nil =>
            obtain ⟨rfl, rfl⟩ := List.cons.inj hrest
            rw [List.append_nil]
            exact .inl rfl
          | cons g' front =>
            obtain ⟨rfl, rfl⟩ := List.cons.inj hrest
            exact .inr ⟨front, f, back, rfl, hf, rfl⟩
    · refine ⟨ks, by rw [confusionsFrom, if_neg hint, hks], fun k => ?_⟩
      rw [hothers]
      constructor
      · rintro ⟨front, f, back, rfl, hf, rfl⟩
        exact ⟨g :: front, f, back, rfl, hf, rfl⟩
      · rintro ⟨front, f, back, hrest, hf, rfl⟩
        cases front with
        | nil => exact absurd ((List.cons.inj hrest).1 ▸ hf) hint
        | cons g' front =>
          obtain ⟨rfl, rfl⟩ := List.cons.inj hrest
          exact ⟨front, f, back, rfl, hf, rfl⟩

/-- One integer that cannot be compared with the other fields as a capability is enough to fail. -/
theorem confusionsFrom_eq_error (hv : 0 < v.capabilityWidth) {before front back : List Field}
    (h : ¬ Confusable v (before ++ front) f back) :
    confusionsFrom v before (front ++ f :: back) = .error (.overflow .add) := by
  induction front generalizing before with
  | nil =>
    unfold Confusable at h
    push Not at h
    obtain ⟨hint, hg⟩ := h
    rw [List.append_nil] at hg
    rw [List.nil_append, confusionsFrom, if_pos hint, slotOf_eq hv, ok_bind,
      confuse_of_not_comparable hg]
    rfl
  | cons g front ih =>
    have hrest : confusionsFrom v (before ++ [g]) (front ++ f :: back) =
        .error (.overflow .add) := ih (by simpa using h)
    rw [List.cons_append, confusionsFrom, hrest]
    split
    · rw [slotOf_eq hv, ok_bind]
      by_cases hg : ∀ other ∈ before ++ (front ++ f :: back), Comparable (slot v g.offset) other
      · rw [confuse_of_comparable hg]
        rfl
      · push Not at hg
        rw [confuse_of_not_comparable hg]
        rfl
    · rfl

/-- Words hold the ends of all fields and of the slots of all integers. -/
structure Roomy (v : Variant) (l : Layout) : Prop where
  fits : ∀ f ∈ l.fields, f.stop < wordSize
  slots_fit : ∀ f ∈ l.fields, f.kind = .int → (slot v f.offset).stop < wordSize

theorem Roomy.confusable (h : Roomy v l) {front back : List Field}
    (hl : l.fields = front ++ f :: back) : Confusable v front f back := by
  intro hint g hg
  refine .inr ⟨h.slots_fit f (by simp [hl]) hint, fun _ => h.fits g ?_⟩
  rw [hl]
  simp only [List.mem_append, List.mem_cons] at hg ⊢
  tauto

/-- Where capabilities have a width, every integer of a layout can be confused that can be compared
with the other fields as a capability. -/
theorem exists_confusions (hv : 0 < v.capabilityWidth) (hfits : ∀ front f back,
      l.fields = front ++ f :: back → Confusable v front f back) :
    ∃ ks, l.confusions v = .ok ks ∧
      ∀ k, k ∈ ks ↔ ∃ front f back, l.fields = front ++ f :: back ∧ f.kind = .int ∧
        k = replaced front (slot v f.offset) back := by
  obtain ⟨ks, hks, hmem⟩ := exists_confusionsFrom hv [] l.fields hfits
  refine ⟨sorted ks, ?_, fun k => ?_⟩
  · rw [confusions, hks]
    rfl
  · rw [mem_sorted, hmem]
    simp only [List.nil_append]

theorem confusions_eq_error (hv : 0 < v.capabilityWidth) {front back : List Field}
    (hl : l.fields = front ++ f :: back) (h : ¬ Confusable v front f back) :
    l.confusions v = .error (.overflow .add) := by
  have herror : confusionsFrom v [] (front ++ f :: back) = .error (.overflow .add) :=
    confusionsFrom_eq_error hv h
  rw [confusions, hl, herror]
  rfl

/-- Where a layout has confused layouts, these have one of its integers as a capability. -/
theorem mem_confusions_iff (hv : 0 < v.capabilityWidth) {ks : List Layout}
    (hks : l.confusions v = .ok ks) :
    k ∈ ks ↔ ∃ front f back, l.fields = front ++ f :: back ∧ f.kind = .int ∧
      k = replaced front (slot v f.offset) back := by
  have hfits : ∀ front f back, l.fields = front ++ f :: back → Confusable v front f back := by
    intro front f back hl
    by_contra hnot
    rw [confusions_eq_error hv hl hnot] at hks
    cases hks
  obtain ⟨ks', hks', hmem⟩ := exists_confusions hv hfits
  obtain rfl : ks = ks' := Except.ok.inj (hks.symm.trans hks')
  exact hmem k

theorem failsWith_confusions (hv : 0 < v.capabilityWidth) (l : Layout) :
    FailsWith (.overflow .add) (l.confusions v) := by
  by_cases hfits : ∀ front f back, l.fields = front ++ f :: back → Confusable v front f back
  · obtain ⟨ks, hks, _⟩ := exists_confusions hv hfits
    exact .of_ok ⟨ks, hks⟩
  · push Not at hfits
    obtain ⟨front, f, back, hl, hnot⟩ := hfits
    exact .inr (confusions_eq_error hv hl hnot)

theorem mem_replaced (hg : g ∈ (replaced before f after).fields) :
    g = f ∨ g ∈ before ++ after := by
  simp only [replaced, List.mem_append, List.mem_cons, List.mem_filter] at hg
  rcases hg with ⟨hg, _⟩ | rfl | ⟨hg, _⟩
  · exact .inr (List.mem_append_left _ hg)
  · exact .inl rfl
  · exact .inr (List.mem_append_right _ hg)

/-- A field of a confused layout is the slot of an integer, or it was there before. -/
theorem mem_of_mem_confusions {ks : List Layout} (hv : 0 < v.capabilityWidth)
    (hks : l.confusions v = .ok ks) (hk : k ∈ ks) (hg : g ∈ k.fields) :
    (∃ f ∈ l.fields, f.kind = .int ∧ g = slot v f.offset) ∨ g ∈ l.fields := by
  obtain ⟨front, f, back, hl, hf, rfl⟩ := (mem_confusions_iff hv hks).mp hk
  rcases mem_replaced hg with rfl | hg
  · exact .inl ⟨f, by simp [hl], hf, rfl⟩
  · right
    rw [hl]
    simp only [List.mem_append, List.mem_cons] at hg ⊢
    tauto

end CapFixture.Layout
