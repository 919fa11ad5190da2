import CapFixture.Enumeration.Run
import CapFixture.Proofs.LayoutSet

/-!
# Runs and their faults

A run of several parts meets no fault when none of its parts does, and then it has recorded what all
of them have. Otherwise its fault is that of one part, and it has recorded nothing else than some of
them have.

## Main definitions

- `Run.OverflowsIff` — a run that can fail only where a word is too small
-/

namespace CapFixture.Run

variable {α : Type} {first : Run} {next : Unit → Run} {f : α → Run} {as : List α}

@[simp]
theorem attempt_ok (a : α) (f : α → Run) : attempt (.ok a) f = f a := rfl

@[simp]
theorem fault_record (l : Layout) : (record l).fault = none := rfl

theorem mem_record {l k : Layout} : k ∈ (record l).recorded ↔ l.possibility? = some k :=
  Option.mem_toList

/-- A layout of padding only is the one that is not recorded. -/
theorem length_record (l : Layout) :
    (record l).recorded.length + (if l.stripPadding.isEmpty then 1 else 0) = 1 := by
  unfold record Layout.possibility?
  by_cases h : l.stripPadding.isEmpty = true <;> simp [h]

theorem recorded_andThen (h : first.fault = none) :
    (first.andThen next).recorded = first.recorded ++ (next ()).recorded := by
  rw [andThen, h]

theorem fault_andThen (h : first.fault = none) :
    (first.andThen next).fault = (next ()).fault := by
  rw [andThen, h]

theorem each_congr {g : α → Run} (h : ∀ a ∈ as, f a = g a) : each f as = each g as := by
  induction as with
  | nil => rfl
  | cons a as ih => rw [each, each, h a (by simp), ih fun b hb => h b (by simp [hb])]

theorem fault_each (h : ∀ a ∈ as, (f a).fault = none) : (each f as).fault = none := by
  induction as with
  | nil => rfl
  | cons a as ih =>
    rw [each, fault_andThen (h a (by simp))]
    exact ih fun b hb => h b (by simp [hb])

theorem recorded_each (h : ∀ a ∈ as, (f a).fault = none) :
    (each f as).recorded = as.flatMap fun a => (f a).recorded := by
  induction as with
  | nil => rfl
  | cons a as ih =>
    rw [each, recorded_andThen (h a (by simp)), ih fun b hb => h b (by simp [hb]),
      List.flatMap_cons]

/-- After a part that fails and records nothing there is nothing more. -/
theorem each_of_fail {a : α} {fault : Fault} (h : f a = .fail fault) :
    each f (a :: as) = .fail fault := by
  rw [each, h]
  rfl

/-- A fault of several parts is that of one of them. -/
theorem exists_fault_of_fault_each {fault : Fault} (h : (each f as).fault = some fault) :
    ∃ a ∈ as, (f a).fault = some fault := by
  induction as with
  | nil => cases h
  | cons a as ih =>
    rw [each] at h
    cases ha : (f a).fault with
    | none =>
      rw [fault_andThen ha] at h
      obtain ⟨b, hb, hfault⟩ := ih h
      exact ⟨b, by simp [hb], hfault⟩
    | some found =>
      rw [andThen, ha] at h
      exact ⟨a, by simp, h⟩

theorem fault_eq_none_of_fault_each (h : (each f as).fault = none) :
    ∀ a ∈ as, (f a).fault = none := by
  induction as with
  | nil => simp
  | cons a as ih =>
    rw [each] at h
    cases ha : (f a).fault with
    | none =>
      rw [fault_andThen ha] at h
      exact List.forall_mem_cons.mpr ⟨ha, ih h⟩
    | some found =>
      rw [andThen, ha] at h
      cases ha.symm.trans h

/-- What several parts record is recorded by one of them, whether they fail or not. -/
theorem exists_mem_of_mem_recorded_each {l : Layout} (h : l ∈ (each f as).recorded) :
    ∃ a ∈ as, l ∈ (f a).recorded := by
  induction as with
  | nil => cases h
  | cons a as ih =>
    rw [each] at h
    cases ha : (f a).fault with
    | none =>
      rw [recorded_andThen ha] at h
      rcases List.mem_append.mp h with h | h
      · exact ⟨a, by simp, h⟩
      · obtain ⟨b, hb, hl⟩ := ih h
        exact ⟨b, by simp [hb], hl⟩
    | some found =>
      rw [andThen, ha] at h
      exact ⟨a, by simp, h⟩

/-- Exactly under the condition the run fails, and its fault is that a word is too small. -/
def OverflowsIff (r : Run) (condition : Prop) : Prop :=
  (r.fault = none ∧ ¬ condition) ∨
    (∃ operation, r.fault = some (.overflow operation)) ∧ condition

/-- Several parts fail exactly if one of them does. -/
theorem OverflowsIff.each {condition : α → Prop}
    (h : ∀ a ∈ as, (f a).OverflowsIff (condition a)) :
    (Run.each f as).OverflowsIff (∃ a ∈ as, condition a) := by
  cases hfault : (Run.each f as).fault with
  | none =>
    refine .inl ⟨hfault, ?_⟩
    rintro ⟨a, ha, hcondition⟩
    have hnone := fault_eq_none_of_fault_each hfault a ha
    rcases h a ha with ⟨_, hnot⟩ | ⟨⟨operation, hsome⟩, _⟩
    · exact hnot hcondition
    · cases hnone.symm.trans hsome
  | some fault =>
    obtain ⟨a, ha, hpart⟩ := exists_fault_of_fault_each hfault
    rcases h a ha with ⟨hnone, _⟩ | ⟨⟨operation, hsome⟩, hcondition⟩
    · cases hnone.symm.trans hpart
    · obtain rfl : fault = .overflow operation := Option.some.inj (hpart.symm.trans hsome)
      exact .inr ⟨⟨operation, hfault⟩, a, ha, hcondition⟩

theorem mem_collectInto {r : Run} {s : LayoutSet} {l : Layout} :
    l ∈ r.collectInto s ↔ l ∈ s ∨ l ∈ r.recorded := by
  rw [collectInto, Std.ExtTreeSet.mem_insertMany_list, List.contains_iff_mem]

end CapFixture.Run
