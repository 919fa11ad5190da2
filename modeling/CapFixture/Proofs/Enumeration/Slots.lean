import Mathlib.Data.List.Nodup
import CapFixture.Proofs.Enumeration.Operations

/-!
# The search in slots

A move as wide as the search step goes on by one slot of that width. So a word of such moves puts
one kind into each slot, where padding stands for nothing, and it crosses the limit with the first
slot that ends past it. Where capabilities are as wide as the step, there are no other words.

## Main definitions

- `Enumeration.slotted` — the layout with these kinds in slots one after the other
- `Enumeration.slotCount` — how many slots start within the limit
- `Enumeration.fillings` — all ways to put a kind into each slot
-/

namespace CapFixture.Enumeration

variable {v : Variant} {l : Layout} {width first n slot : Nat} {kind : Kind} {kinds : List Kind}
  {f : Field}

/-- A field in each slot from the first one on. -/
def slotFields (width first : Nat) (kinds : List Kind) : List Field :=
  (kinds.zipIdx first).map fun (kind, slot) => ⟨slot * width, kind, width⟩

/-- The layout with the kinds in slots of this width, and nothing in those with padding. -/
def slotted (width : Nat) (kinds : List Kind) : Layout :=
  Layout.stripPadding ⟨slotFields width 0 kinds⟩

/-- How many slots of the search start within the limit. -/
def slotCount (v : Variant) : Nat := v.byteLimit / v.recursionStep + 1

/-- All ways to put a kind into each of so many slots. -/
def fillings : Nat → List (List Kind)
  | 0 => [[]]
  | n + 1 => [.padding, .int, .ptr].flatMap fun kind => (fillings n).map (kind :: ·)

/-! ### Fields in slots -/

theorem mem_slotted : f ∈ (slotted width kinds).fields ↔
    ∃ slot kind, kinds[slot]? = some kind ∧ kind ≠ .padding ∧ f = ⟨slot * width, kind, width⟩ := by
  rw [slotted, Layout.mem_stripPadding, slotFields, List.mem_map]
  constructor
  · rintro ⟨⟨⟨kind, slot⟩, hmem, rfl⟩, hkind⟩
    exact ⟨slot, kind, List.mem_zipIdx_iff_getElem?.mp hmem, hkind, rfl⟩
  · rintro ⟨slot, kind, hget, hkind, rfl⟩
    exact ⟨⟨(kind, slot), List.mem_zipIdx_iff_getElem?.mpr hget, rfl⟩, hkind⟩

theorem mk_mem_slotted (hw : 0 < width) (hkind : kind ≠ .padding) :
    ⟨slot * width, kind, width⟩ ∈ (slotted width kinds).fields ↔ kinds[slot]? = some kind := by
  rw [mem_slotted]
  constructor
  · rintro ⟨other, _, hget, _, heq⟩
    obtain ⟨hoffset, rfl, -⟩ := Field.mk.inj heq
    rwa [Nat.eq_of_mul_eq_mul_right hw hoffset]
  · intro hget
    exact ⟨slot, kind, hget, hkind, rfl⟩

/-- The kinds in as many slots are determined by the fields that they make. -/
theorem slotted_injective (hw : 0 < width) {kinds' : List Kind}
    (hlength : kinds.length = kinds'.length) (h : slotted width kinds = slotted width kinds') :
    kinds = kinds' := by
  have hsame : ∀ (slot : Nat) (kind : Kind), kind ≠ .padding →
      (kinds[slot]? = some kind ↔ kinds'[slot]? = some kind) := by
    intro slot kind hkind
    rw [← mk_mem_slotted hw hkind, h, mk_mem_slotted hw hkind]
  refine List.ext_getElem hlength fun slot hslot hslot' => ?_
  have hget := List.getElem?_eq_getElem hslot
  have hget' := List.getElem?_eq_getElem hslot'
  -- padding is in a slot where no other kind is
  by_cases hkind : kinds[slot] = .padding
  · by_cases hkind' : kinds'[slot] = .padding
    · rw [hkind, hkind']
    · rw [(hsame slot _ hkind').mpr hget'] at hget
      exact (Option.some.inj hget).symm
  · rw [(hsame slot _ hkind).mp hget] at hget'
    exact Option.some.inj hget'

theorem slotted_eq_empty_iff : (slotted width kinds).fields = [] ↔
    kinds = List.replicate kinds.length .padding := by
  rw [List.eq_nil_iff_forall_not_mem, List.eq_replicate_iff, and_iff_right rfl]
  simp only [mem_slotted, not_exists, not_and]
  constructor
  · intro h kind hmem
    obtain ⟨slot, hget⟩ := List.mem_iff_getElem?.mp hmem
    by_contra hkind
    exact h _ slot kind hget hkind rfl
  · rintro h _ slot kind hget hkind
    exact absurd (h kind (List.mem_of_getElem? hget)) hkind

/-! ### Fillings -/

theorem mem_fillings : kinds ∈ fillings n ↔ kinds.length = n := by
  induction n generalizing kinds with
  | zero => simp [fillings]
  | succ n ih =>
    cases kinds with
    | nil => simp [fillings]
    | cons kind kinds => cases kind <;> simp [fillings, ih]

theorem length_fillings (n : Nat) : (fillings n).length = 3 ^ n := by
  induction n with
  | zero => rfl
  | succ n ih =>
    simp only [fillings, List.length_flatMap, List.length_map, ih, List.map_cons, List.map_nil,
      List.sum_cons, List.sum_nil, Nat.pow_succ]
    omega

theorem nodup_fillings (n : Nat) : (fillings n).Nodup := by
  induction n with
  | zero => exact List.nodup_singleton _
  | succ n ih =>
    refine List.nodup_flatMap.mpr ⟨fun kind _ => ih.map List.cons_injective, ?_⟩
    -- fillings with different kinds in their first slot are different
    have hkinds : [Kind.padding, .int, .ptr].Nodup := by decide
    refine hkinds.imp fun {a b} hne kinds ha hb => ?_
    obtain ⟨_, _, rfl⟩ := List.mem_map.mp ha
    obtain ⟨_, _, heq⟩ := List.mem_map.mp hb
    exact hne (List.cons.inj heq).1.symm

/-! ### Words of moves in slots -/

theorem slotFields_cons (width first : Nat) (kind : Kind) (kinds : List Kind) :
    slotFields width first (kind :: kinds) =
      ⟨first * width, kind, width⟩ :: slotFields width (first + 1) kinds := rfl

/-- A layout that ends with a slot goes on with the next one. -/
theorem extend_slot (hw : 0 < width) (hl : l.total = first * width) (kind : Kind) :
    l.extend kind width = ⟨l.fields ++ [⟨first * width, kind, width⟩]⟩ := by
  have hnext : l.nextOffset width = first * width := by
    have hround : first * width + (width - 1) = width - 1 + width * first := by
      rw [Nat.mul_comm, Nat.add_comm]
    rw [Layout.nextOffset, if_neg (Nat.ne_of_gt hw), hl, hround, Nat.add_mul_div_left _ _ hw,
      Nat.div_eq_of_lt (Nat.sub_lt hw Nat.one_pos), Nat.zero_add]
  have hoffset : l.offsetFor kind width = first * width := by
    unfold Layout.offsetFor
    split
    · exact hl
    · exact hnext
  rw [Layout.extend, hoffset]

theorem lt_slotCount_iff (hv : v.Searchable) :
    slot < slotCount v ↔ slot * v.recursionStep ≤ v.byteLimit := by
  rw [slotCount, Nat.lt_succ_iff, Nat.le_div_iff_mul_le hv.step_pos]

/-- Moves of one slot each, of which the last one starts within the limit. -/
theorem walk_slots (hv : v.Searchable) (hl : l.total = first * v.recursionStep)
    (hmoves : ∀ kind ∈ kinds, (kind, v.recursionStep) ∈ moves v)
    (hwithin : first + kinds.length ≤ slotCount v) :
    ∃ last, Walk v l (kinds.map (·, v.recursionStep)) last ∧
      last.fields = l.fields ++ slotFields v.recursionStep first kinds ∧
      last.total = (first + kinds.length) * v.recursionStep := by
  induction kinds generalizing l first with
  | nil => exact ⟨l, .stop l, (List.append_nil _).symm, hl⟩
  | cons kind kinds ih =>
    rw [List.forall_mem_cons] at hmoves
    rw [List.length_cons] at hwithin
    have hextend := extend_slot hv.step_pos hl kind
    have htotal : (l.extend kind v.recursionStep).total = (first + 1) * v.recursionStep := by
      rw [hextend, Layout.total_concat, Field.stop, Nat.succ_mul]
    have hstart : l.total ≤ v.byteLimit := by
      rw [hl, ← lt_slotCount_iff hv]
      omega
    obtain ⟨last, hwalk, hfields, hlast⟩ := ih htotal hmoves.2 (by omega)
    refine ⟨last, .move hstart hmoves.1 (append_of_mem_moves hv hmoves.1 hstart) hwalk, ?_, ?_⟩
    · rw [hfields, hextend, slotFields_cons, List.append_assoc]
      rfl
    · rw [hlast, List.length_cons, Nat.add_assoc, Nat.add_comm 1]

/-- The search finds every way to fill the slots with moves of one slot each. -/
theorem slotted_mem_search (hv : v.Searchable) (hlength : kinds.length = slotCount v)
    (hmoves : ∀ kind ∈ kinds, (kind, v.recursionStep) ∈ moves v)
    (hne : (slotted v.recursionStep kinds).fields ≠ []) :
    slotted v.recursionStep kinds ∈ (search v .empty).recorded := by
  have hempty : Layout.empty.total = 0 * v.recursionStep := (Nat.zero_mul _).symm
  obtain ⟨last, hwalk, hfields, htotal⟩ := walk_slots hv hempty hmoves (by omega)
  have hpast : v.byteLimit < last.total := by
    rw [htotal, Nat.zero_add, hlength, ← Nat.not_le, ← lt_slotCount_iff hv]
    exact Nat.lt_irrefl _
  have hlast : last.stripPadding = slotted v.recursionStep kinds := by
    rw [slotted, ← List.nil_append (slotFields _ _ _)]
    exact congrArg (fun fields => Layout.stripPadding ⟨fields⟩) hfields
  exact (mem_recorded_search hv).mpr ⟨_, last, hwalk, hpast,
    Layout.possibility?_eq_some_iff.mpr ⟨hlast, hne⟩⟩

/-! ### All that the search finds -/

/-- The layouts of all fillings but the one with padding only. -/
def slotLayouts (v : Variant) : List Layout :=
  ((fillings (slotCount v)).erase (List.replicate (slotCount v) .padding)).map
    (slotted v.recursionStep)

theorem mem_slotLayouts : l ∈ slotLayouts v ↔
    l.fields ≠ [] ∧ ∃ kinds, kinds.length = slotCount v ∧ l = slotted v.recursionStep kinds := by
  simp only [slotLayouts, List.mem_map, (nodup_fillings _).mem_erase_iff, mem_fillings]
  constructor
  · rintro ⟨kinds, ⟨hne, hlength⟩, rfl⟩
    rw [Ne, slotted_eq_empty_iff, hlength]
    exact ⟨hne, kinds, hlength, rfl⟩
  · rintro ⟨hne, kinds, hlength, rfl⟩
    rw [Ne, slotted_eq_empty_iff, hlength] at hne
    exact ⟨kinds, ⟨hne, hlength⟩, rfl⟩

theorem length_slotLayouts (v : Variant) : (slotLayouts v).length = 3 ^ slotCount v - 1 := by
  have hmem : List.replicate (slotCount v) .padding ∈ fillings (slotCount v) :=
    mem_fillings.mpr List.length_replicate
  rw [slotLayouts, List.length_map, List.length_erase_of_mem hmem, length_fillings]

theorem nodup_slotLayouts (hv : v.Searchable) : (slotLayouts v).Nodup := by
  refine List.Nodup.map_on ?_ ((nodup_fillings _).erase _)
  intro kinds hkinds kinds' hkinds'
  refine slotted_injective hv.step_pos ?_
  rw [mem_fillings.mp (List.mem_of_mem_erase hkinds),
    mem_fillings.mp (List.mem_of_mem_erase hkinds')]

/-- The search has found each of these layouts, and there is no room in its tree for others or for
one of them twice. -/
theorem perm_recorded_search (hv : v.Searchable) (hwidth : v.capabilityWidth = v.recursionStep) :
    (slotLayouts v).Perm (search v .empty).recorded := by
  have hsubset : slotLayouts v ⊆ (search v .empty).recorded := by
    intro l hl
    obtain ⟨hne, kinds, hlength, rfl⟩ := mem_slotLayouts.mp hl
    refine slotted_mem_search hv hlength (fun kind _ => ?_) hne
    cases kind <;> simp [moves, hwidth]
  have hdepth : v.byteLimit < Layout.empty.total + slotCount v * stride v := by
    have hstride : stride v = v.recursionStep := by rw [stride, hwidth, Nat.min_self]
    have htotal : Layout.empty.total = 0 := rfl
    rw [hstride, htotal, Nat.zero_add, ← Nat.not_le, ← lt_slotCount_iff hv]
    exact Nat.lt_irrefl _
  have hbound : (search v .empty).recorded.length ≤ (slotLayouts v).length := by
    have htree := length_recorded_search_le hv.toMoving (not_overruns_empty hv) hdepth
    have hempty : Layout.empty.stripPadding.isEmpty = true := rfl
    rw [if_pos hempty] at htree
    rw [length_slotLayouts]
    omega
  exact ((nodup_slotLayouts hv).subperm hsubset).perm_of_length_le hbound

/-- Where the capabilities of a valid variant are as wide as its search step, the search finishes.
From nothing it collects the layouts with nothing, an integer or a capability in each of the slots
that start within the limit, unless there is nothing in all of them. Each way to fill the slots
gives a layout of its own. -/
theorem search_collects_slotted (hv : v.defect? = none)
    (hwidth : v.capabilityWidth = v.recursionStep) :
    ∃ collected, Operation.search.perform v ∅ = (.finished, collected) ∧
      (∀ l, l ∈ collected ↔ l.fields ≠ [] ∧ ∃ kinds : List Kind,
        kinds.length = v.byteLimit / v.recursionStep + 1 ∧ l = slotted v.recursionStep kinds) ∧
      collected.size = 3 ^ (v.byteLimit / v.recursionStep + 1) - 1 := by
  have hsearchable := (Variant.defect?_eq_none_iff.mp hv).searchable
  have hperm := perm_recorded_search hsearchable hwidth
  have hmem : ∀ l, l ∈ (search v .empty).collectInto ∅ ↔ l ∈ slotLayouts v := by
    intro l
    rw [Run.mem_collectInto, ← hperm.mem_iff]
    simp
  refine ⟨(search v .empty).collectInto ∅, ?_, fun l => ?_, ?_⟩
  · rw [perform_search, fault_search hsearchable]
  · rw [hmem, mem_slotLayouts]
    rfl
  · have hnodup := Layout.nodup_of_pairwise_precedes
      (Layout.pairwise_precedes_toList ((search v .empty).collectInto ∅))
    have hsame : ((search v .empty).collectInto ∅).toList.Perm (slotLayouts v) := by
      refine (List.perm_ext_iff_of_nodup hnodup (nodup_slotLayouts hsearchable)).mpr fun l => ?_
      rw [Std.ExtTreeSet.mem_toList, hmem]
    rw [← Std.ExtTreeSet.length_toList, hsame.length_eq, length_slotLayouts]
    rfl

/-- Four slots, of which the last one starts at the limit. -/
theorem search_filc_collects_slotted :
    ∃ collected, Operation.search.perform .filc ∅ = (.finished, collected) ∧
      ⟨[⟨8, .int, 8⟩, ⟨24, .ptr, 8⟩]⟩ ∈ collected ∧ collected.size = 80 := by
  obtain ⟨collected, hsearch, hmem, hsize⟩ :=
    search_collects_slotted (v := .filc) (by decide) (by decide)
  exact ⟨collected, hsearch, (hmem _).mpr ⟨by decide, [.padding, .int, .padding, .ptr],
    by decide, by decide⟩, hsize⟩

end CapFixture.Enumeration
