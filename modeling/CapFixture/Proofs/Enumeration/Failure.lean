import CapFixture.Proofs.Enumeration.Operations

/-!
# Strategies that fail

Where no width is zero, the grid finishes unless a word is too small for it. The search refuses an
integer of its step exactly if no integer is that wide. It gives up at the first integer that it
tries. By then it has seen nothing but padding, and so it has recorded nothing.

## Main definitions

- `Enumeration.paddedTotal` — where the search has padded past the limit
-/

namespace CapFixture

variable {v : Variant} {l : Layout} {kind : Kind} {size : Nat}

/-- A size that the variant does not allow is refused before the alignment is looked at. -/
theorem Layout.append_eq_badSize (hs : 0 < size) (h : v.allows kind size = false)
    (hfits : l.offsetFor kind size < wordSize) :
    l.append v kind size = .error (.badSize kind size) := by
  have hmake : Field.make v kind (l.offsetFor kind size) size = .error (.badSize kind size) :=
    if_pos (by simp [h])
  rw [append, if_neg (by omega), wordOffset_of_lt hfits]
  simp only [hmake]

namespace Enumeration

/-- Where a layout of padding only ends once it is past the limit. -/
def paddedTotal (v : Variant) : Nat := (v.byteLimit / v.recursionStep + 1) * v.recursionStep

theorem lt_paddedTotal (hstep : 0 < v.recursionStep) : v.byteLimit < paddedTotal v := by
  rw [paddedTotal, Nat.mul_comm]
  exact Nat.lt_mul_div_succ v.byteLimit hstep

/-- Steps of padding reach the first multiple of the step that is past the limit. -/
theorem add_step_eq_paddedTotal (hstep : 0 < v.recursionStep) (hl : l.total ≤ v.byteLimit)
    (hsteps : v.recursionStep ∣ l.total) (hpast : v.byteLimit < l.total + v.recursionStep) :
    l.total + v.recursionStep = paddedTotal v := by
  obtain ⟨steps, hsteps⟩ := hsteps
  rw [hsteps, Nat.mul_comm] at hl hpast
  have hdiv : v.byteLimit / v.recursionStep = steps := by
    rw [Nat.div_eq_iff hstep]
    omega
  rw [paddedTotal, hdiv, hsteps, Nat.succ_mul, Nat.mul_comm]

/-- The first integer is refused. -/
theorem branch_int_of_not_mem (hstep : 0 < v.recursionStep) (hmem : v.recursionStep ∉ v.intSizes)
    (hfits : l.total + v.recursionStep < wordSize) :
    branch v l (.int, v.recursionStep) = .fail (.badSize .int v.recursionStep) := by
  have hoffset : l.offsetFor .int v.recursionStep < wordSize :=
    Nat.lt_trans (l.offsetFor_lt .int hstep) hfits
  rw [branch, Layout.append_eq_badSize hstep (by simpa [Variant.allows] using hmem) hoffset]
  rfl

/-- As long as there is only padding, the search goes on with more of it. Past the limit there is
nothing to record, and it comes back and tries the integer that the variant does not have. -/
theorem search_of_padding (hstep : 0 < v.recursionStep) (hmem : v.recursionStep ∉ v.intSizes)
    (hsolid : l.stripPadding.fields = []) (hsteps : v.recursionStep ∣ l.total)
    (hl : l.total ≤ v.byteLimit) :
    search v l = .fail (if paddedTotal v < wordSize then .badSize .int v.recursionStep
      else .overflow .add) := by
  induction hleft : v.byteLimit - l.total using Nat.strongRecOn generalizing l with
  | _ left ih =>
    rcases Nat.lt_or_ge l.total wordSize with hfits | hlarge
    · let padded := l.extend .padding v.recursionStep
      have happend : l.append v .padding v.recursionStep = .ok padded :=
        Layout.append_of_allows hstep (by simpa [Variant.allows] using Nat.ne_of_gt hstep) hfits
      have htotal : padded.total = l.total + v.recursionStep :=
        Layout.total_of_append_padding happend
      have hpadded : padded.stripPadding.fields = [] := by
        rw [Layout.stripPadding_extend_padding, hsolid]
      have hpadding : branch v l (.padding, v.recursionStep) = search v padded := by
        rw [branch, happend, Run.attempt_ok, if_pos (by omega)]
      rw [search_eq_branches hfits hl, moves]
      rcases Nat.lt_or_ge v.byteLimit padded.total with hpast | hwithin
      · have hend : padded.total = paddedTotal v :=
          htotal.trans (add_step_eq_paddedTotal hstep hl hsteps (htotal ▸ hpast))
        rw [← hend]
        split
        · next hfits =>
          have hnothing : padded.possibility? = none :=
            if_pos (by simp [Layout.isEmpty, hpadded])
          have hdone : branch v l (.padding, v.recursionStep) = Run.done := by
            rw [hpadding, search_past hfits hpast, Run.record, hnothing]
            rfl
          rw [Run.each, hdone]
          exact Run.each_of_fail (branch_int_of_not_mem hstep hmem (htotal ▸ hfits))
        · next hlarge =>
          exact Run.each_of_fail (hpadding.trans (search_of_large (Nat.le_of_not_lt hlarge)))
      · refine Run.each_of_fail (hpadding.trans ?_)
        exact ih _ (by omega) hpadded (htotal ▸ Nat.dvd_add hsteps (Nat.dvd_refl _)) hwithin rfl
    · have hpadded := lt_paddedTotal hstep
      rw [search_of_large hlarge, if_neg (by omega)]

end Enumeration

end CapFixture
