import CapFixture.Proofs.Enumeration

/-!
# Operations on collected layouts

Every operation adds to the layouts collected so far a list of possibilities that depends on the
variant alone. So a sequence of operations collects the same layouts in every order and however
often an operation is repeated.

## Main definitions

- `Enumeration.Answer.OverflowsIff` — how a strategy ends that only a small word can stop
- `Enumeration.Operation.finds` — what an operation adds
- `Enumeration.performAll` — operations one after the other
-/

namespace CapFixture.Enumeration

variable {v : Variant} {s : LayoutSet} {k l : Layout} {op : Operation} {ops : List Operation}
  {fault : Fault}

/-- The possibilities that an operation adds, whatever has been collected before. -/
def Operation.finds (v : Variant) : Operation → List Layout
  | .grid => (Enumeration.grid v).recorded
  | .search => (Enumeration.search v .empty).recorded
  | .add l => l.possibility?.toList

/-- The set after the operations, one after the other. -/
def performAll (v : Variant) (s : LayoutSet) (ops : List Operation) : LayoutSet :=
  ops.foldl (fun s op => (op.perform v s).2) s

/-! ### Answers -/

theorem perform_grid (v : Variant) (s : LayoutSet) :
    Operation.grid.perform v s =
      (match (grid v).fault with | none => .finished | some fault => .failed fault,
        (grid v).collectInto s) := rfl

theorem perform_search (v : Variant) (s : LayoutSet) :
    Operation.search.perform v s =
      (match (search v .empty).fault with | none => .finished | some fault => .failed fault,
        (search v .empty).collectInto s) := rfl

/-- A strategy finishes, or exactly under the condition a word is too small for it. -/
def Answer.OverflowsIff (answer : Answer) (condition : Prop) : Prop :=
  (answer = .finished ∧ ¬ condition) ∨
    (∃ operation, answer = .failed (.overflow operation)) ∧ condition

theorem Answer.OverflowsIff.eq_finished {answer : Answer} {condition : Prop}
    (h : answer.OverflowsIff condition) (hnot : ¬ condition) : answer = .finished := by
  rcases h with ⟨hanswer, _⟩ | ⟨_, hcondition⟩
  · exact hanswer
  · exact absurd hcondition hnot

theorem Answer.OverflowsIff.not_of_eq_finished {answer : Answer} {condition : Prop}
    (h : answer.OverflowsIff condition) (hanswer : answer = .finished) : ¬ condition := by
  rcases h with ⟨_, hnot⟩ | ⟨⟨operation, hfailed⟩, _⟩
  · exact hnot
  · cases hanswer.symm.trans hfailed

theorem OverflowsIff.answer {r : Run} {condition : Prop} (h : r.OverflowsIff condition) :
    Answer.OverflowsIff (match r.fault with | none => .finished | some fault => .failed fault)
      condition := by
  rcases h with ⟨hnone, hnot⟩ | ⟨⟨operation, hfault⟩, hcondition⟩
  · exact .inl ⟨by rw [hnone], hnot⟩
  · exact .inr ⟨⟨operation, by rw [hfault]⟩, hcondition⟩

/-- A layout of padding only is not added. -/
theorem perform_add_of_isEmpty (h : l.stripPadding.fields = []) :
    (Operation.add l).perform v s = (.added false, s) := by
  have hnone : l.possibility? = none := if_pos (by simp [Layout.isEmpty, h])
  simp only [Operation.perform, LayoutSet.add, hnone]

theorem perform_add_of_ne (h : l.stripPadding.fields ≠ []) :
    (Operation.add l).perform v s =
      (.added (!s.contains l.stripPadding), s.insert l.stripPadding) := by
  have hsome : l.possibility? = some l.stripPadding :=
    Layout.possibility?_eq_some_iff.mpr ⟨rfl, h⟩
  simp only [Operation.perform, LayoutSet.add, hsome]

theorem insert_eq_self (h : k ∈ s) : s.insert k = s := by
  refine Std.ExtTreeSet.ext_mem fun l => ?_
  rw [Std.ExtTreeSet.mem_insert, Std.compare_eq_iff_eq]
  constructor
  · rintro (rfl | hl)
    · exact h
    · exact hl
  · exact .inr

/-- An addition answers whether the layout without its padding is something new, and then it is
the one layout that the set gains. -/
theorem perform_add (v : Variant) (s : LayoutSet) (l : Layout) :
    ∃ new after, (Operation.add l).perform v s = (.added new, after) ∧
      (new = true ↔ l.stripPadding.fields ≠ [] ∧ l.stripPadding ∉ s) ∧
      (new = true → after = s.insert l.stripPadding ∧ after.size = s.size + 1) ∧
      (new = false → after = s) := by
  by_cases hempty : l.stripPadding.fields = []
  · exact ⟨false, s, perform_add_of_isEmpty hempty, by simp [hempty], by simp, fun _ => rfl⟩
  · refine ⟨_, _, perform_add_of_ne hempty, ?_⟩
    by_cases hmem : l.stripPadding ∈ s
    · have hcontains := Std.ExtTreeSet.contains_iff_mem.mpr hmem
      simp [hcontains, hmem, insert_eq_self hmem]
    · have hcontains : s.contains l.stripPadding = false := by
        rwa [← Bool.not_eq_true, Std.ExtTreeSet.contains_iff_mem]
      simp [hcontains, hmem, hempty, Std.ExtTreeSet.size_insert]

/-- No operation of a valid variant fails. -/
theorem perform_ne_failed (hv : v.Valid) (s : LayoutSet) (op : Operation) :
    (op.perform v s).1 ≠ .failed fault := by
  cases op with
  | grid => simp [perform_grid, fault_grid hv.fillable]
  | search => simp [perform_search, fault_search hv.searchable]
  | add l =>
    obtain ⟨new, after, h, _⟩ := perform_add v s l
    simp [h]

/-! ### What is collected -/

theorem mem_perform : k ∈ (op.perform v s).2 ↔ k ∈ s ∨ k ∈ op.finds v := by
  cases op with
  | grid => exact Run.mem_collectInto
  | search => exact Run.mem_collectInto
  | add l =>
    by_cases hempty : l.stripPadding.fields = []
    · have hnone : l.possibility? = none := if_pos (by simp [Layout.isEmpty, hempty])
      simp [perform_add_of_isEmpty hempty, Operation.finds, hnone]
    · have hsome : l.possibility? = some l.stripPadding :=
        Layout.possibility?_eq_some_iff.mpr ⟨rfl, hempty⟩
      simp only [perform_add_of_ne hempty, Operation.finds, hsome, Std.ExtTreeSet.mem_insert,
        Std.compare_eq_iff_eq, Option.mem_toList, Option.some.injEq, or_comm]

theorem mem_performAll : k ∈ performAll v s ops ↔ k ∈ s ∨ ∃ op ∈ ops, k ∈ op.finds v := by
  induction ops generalizing s with
  | nil => simp [performAll]
  | cons op ops ih =>
    have hcons : performAll v s (op :: ops) = performAll v (op.perform v s).2 ops := rfl
    rw [hcons, ih, mem_perform, or_assoc, List.exists_mem_cons_iff]

/-- What an operation adds is without padding, and not nothing. -/
theorem solid_of_mem_finds (hv : v.Valid) (h : k ∈ op.finds v) :
    k.fields ≠ [] ∧ ∀ f ∈ k.fields, f.kind ≠ .padding := by
  have hl : ∃ l : Layout, l.possibility? = some k := by
    cases op with
    | grid =>
      obtain ⟨l, _, hl⟩ := exists_visited_of_mem_recorded hv (.inl h)
      exact ⟨l, hl⟩
    | search =>
      obtain ⟨l, _, hl⟩ := exists_visited_of_mem_recorded hv (.inr h)
      exact ⟨l, hl⟩
    | add l => exact ⟨l, Option.mem_toList.mp h⟩
  obtain ⟨l, hl⟩ := hl
  obtain ⟨rfl, hne⟩ := Layout.possibility?_eq_some_iff.mp hl
  exact ⟨hne, fun f hf => (Layout.mem_stripPadding.mp hf).2⟩

theorem performAll_congr {ops' : List Operation} (h : ∀ op, op ∈ ops ↔ op ∈ ops') :
    performAll v s ops = performAll v s ops' := by
  refine Std.ExtTreeSet.ext_mem fun k => ?_
  simp only [mem_performAll, h]

/-- Whatever operations of a valid variant come before: none fails, all that is collected is
without padding and not empty, and an addition answers whether it makes the set larger, which
then gains one layout. In the end only matters which operations there were. -/
theorem performAll_unordered (hv : v.defect? = none) (ops : List Operation) :
    (∀ (op : Operation) (fault : Fault), (op.perform v (performAll v ∅ ops)).1 ≠ .failed fault) ∧
    (∀ k ∈ performAll v ∅ ops, k.fields ≠ [] ∧ ∀ f ∈ k.fields, f.kind ≠ .padding) ∧
    (∀ l, ∃ new after, (Operation.add l).perform v (performAll v ∅ ops) = (.added new, after) ∧
      (new = true ↔ l.stripPadding.fields ≠ [] ∧ l.stripPadding ∉ performAll v ∅ ops) ∧
      (new = true → after = (performAll v ∅ ops).insert l.stripPadding ∧
        after.size = (performAll v ∅ ops).size + 1) ∧
      (new = false → after = performAll v ∅ ops)) ∧
    ∀ ops', (∀ op, op ∈ ops ↔ op ∈ ops') →
      (performAll v ∅ ops).toList = (performAll v ∅ ops').toList := by
  have hvalid := Variant.defect?_eq_none_iff.mp hv
  refine ⟨fun op _ => perform_ne_failed hvalid _ op, fun k hk => ?_,
    fun l => perform_add v _ l, fun ops' h => congrArg _ (performAll_congr h)⟩
  rcases mem_performAll.mp hk with hk | ⟨op, _, hk⟩
  · exact absurd hk (by simp)
  · exact solid_of_mem_finds hvalid hk

/-- An integer is added before both strategies, and again between them. -/
theorem performAll_filc_unordered :
    Variant.filc.defect? = none ∧
      (performAll .filc ∅ [.add ⟨[⟨0, .int, 4⟩]⟩, .grid, .search]).toList =
        (performAll .filc ∅ [.search, .add ⟨[⟨0, .int, 4⟩]⟩, .grid, .search]).toList := by
  have hvalid : Variant.filc.defect? = none := by decide
  refine ⟨hvalid, (performAll_unordered hvalid _).2.2.2 _ fun op => ?_⟩
  simp only [List.mem_cons, List.not_mem_nil, or_false]
  tauto

end CapFixture.Enumeration
