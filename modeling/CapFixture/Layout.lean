import CapFixture.Fault
import CapFixture.Variant

/-!
# Layouts

A layout is the list of fields of a buffer. It grows at its end by `Layout.append`, which puts
integers and capabilities at the next multiple of their size and padding right at the end.
Layouts are compared field by field, and a layout comes before its extensions.

## Main definitions

- `Field.make` — a field that the variant allows at that offset
- `Layout.total`, `Layout.offsetFor` — where a layout ends and where it grows
- `Layout.wordTotal`, `Layout.wordOffset` — the same as words
- `Layout.append`, `Layout.stripPadding`, `Layout.without` — the ways to change a layout
- `Layout.Step` — one such change as a value
-/

namespace CapFixture

namespace Field

/-- A field that the variant allows. Integers and capabilities are aligned to their size. -/
def make (v : Variant) (kind : Kind) (offset size : Nat) : Except Fault Field :=
  if !v.allows kind size then .error (.badSize kind size)
  else if kind = .padding then .ok ⟨offset, kind, size⟩
  else if size = 0 then .error .zeroWidth
  else if offset % size ≠ 0 then .error (.misaligned kind offset size)
  else .ok ⟨offset, kind, size⟩

theorem make_eq {v : Variant} {kind : Kind} {offset size : Nat} {f : Field}
    (h : make v kind offset size = .ok f) : f = ⟨offset, kind, size⟩ := by
  unfold make at h
  split at h <;> try contradiction
  split at h
  · exact (Except.ok.inj h).symm
  · split at h <;> try contradiction
    split at h <;> try contradiction
    exact (Except.ok.inj h).symm

theorem make_size_pos {v : Variant} {kind : Kind} {offset size : Nat} {f : Field}
    (h : make v kind offset size = .ok f) : 0 < size := by
  unfold make at h
  split at h <;> try contradiction
  rename_i allowed
  split at h
  · rename_i padding
    simp_all [Variant.allows]
    omega
  · split at h <;> try contradiction
    omega

end Field

/-- The fields of a buffer, first to last. -/
structure Layout where
  fields : List Field
  deriving DecidableEq, Repr, Inhabited

namespace Layout

def empty : Layout := ⟨[]⟩

def length (l : Layout) : Nat := l.fields.length

def isEmpty (l : Layout) : Bool := l.fields.isEmpty

/-- Where the last field stops. -/
def total (l : Layout) : Nat :=
  match l.fields.getLast? with
  | none => 0
  | some f => f.stop

/-- Where the last field stops, as a word. -/
def wordTotal (l : Layout) : Except Fault Nat :=
  match l.fields.getLast? with
  | none => .ok 0
  | some f => f.wordStop

def has (l : Layout) (kind : Kind) : Bool := l.fields.any (·.kind == kind)

/-- The fields of all other kinds, where they are. -/
def without (l : Layout) (kind : Kind) : Layout := ⟨l.fields.filter (·.kind != kind)⟩

def stripPadding (l : Layout) : Layout := l.without .padding

/-- The first multiple of `size` at or after the end. -/
def nextOffset (l : Layout) (size : Nat) : Nat :=
  if size = 0 then l.total else (l.total + (size - 1)) / size * size

/-- Where a new last field of this kind and size goes. -/
def offsetFor (l : Layout) (kind : Kind) (size : Nat) : Nat :=
  if kind = .padding then l.total else l.nextOffset size

/-- Where a new last field goes, as a word. -/
def wordOffset (l : Layout) (kind : Kind) (size : Nat) : Except Fault Nat :=
  match l.wordTotal with
  | .error fault => .error fault
  | .ok total =>
    if kind = .padding ∨ size = 0 then .ok total
    else Arithmetic.mul.checked ((total + (size - 1)) / size * size)

/-- Adds a last field. Padding of no bytes changes nothing. -/
def append (l : Layout) (v : Variant) (kind : Kind) (size : Nat) : Except Fault Layout :=
  if kind = .padding ∧ size = 0 then .ok l
  else
    match l.wordOffset kind size with
    | .error fault => .error fault
    | .ok offset =>
      match Field.make v kind offset size with
      | .error fault => .error fault
      | .ok field => .ok ⟨l.fields ++ [field]⟩

/-- The fields joined by commas. -/
def render (l : Layout) : String := ", ".intercalate (l.fields.map Field.render)

/-- Field by field, a layout before its extensions. -/
protected def compare : Layout → Layout → Ordering := compareOn fields

instance : Ord Layout := ⟨Layout.compare⟩

instance : Std.TransOrd Layout := inferInstanceAs (Std.TransCmp (compareOn fields))

instance : Std.LawfulEqOrd Layout where
  eq_of_compare {l k} h := by
    have h : compare l.fields k.fields = .eq := h
    cases l
    cases k
    simp_all

/-- One way to change a layout. -/
inductive Step where
  | append (kind : Kind) (size : Nat)
  | stripPadding
  | without (kind : Kind)
  deriving DecidableEq, Repr

def step (v : Variant) (l : Layout) : Step → Except Fault Layout
  | .append kind size => l.append v kind size
  | .stripPadding => .ok l.stripPadding
  | .without kind => .ok (l.without kind)

/-- The layout that the steps make of the empty one. -/
def build (v : Variant) (steps : List Step) : Except Fault Layout :=
  steps.foldlM (step v) empty

/-! ### Growth -/

@[simp]
theorem total_concat (fields : List Field) (f : Field) : total ⟨fields ++ [f]⟩ = f.stop := by
  simp [total]

theorem total_le_nextOffset (l : Layout) (size : Nat) : l.total ≤ l.nextOffset size := by
  unfold nextOffset
  split
  · exact Nat.le_refl _
  · rename_i nonzero
    have parts := Nat.div_add_mod (l.total + (size - 1)) size
    have rest := Nat.mod_lt (l.total + (size - 1)) (Nat.pos_of_ne_zero nonzero)
    rw [Nat.mul_comm] at parts
    omega

theorem total_le_offsetFor (l : Layout) (kind : Kind) (size : Nat) :
    l.total ≤ l.offsetFor kind size := by
  unfold offsetFor
  split
  · exact Nat.le_refl _
  · exact l.total_le_nextOffset size

theorem wordTotal_eq (l : Layout) : l.wordTotal = Arithmetic.add.checked l.total := by
  unfold wordTotal total
  split
  · exact (Arithmetic.checked_of_lt (by decide) _).symm
  · rfl

theorem eq_total_of_wordTotal {l : Layout} {total : Nat} (h : l.wordTotal = .ok total) :
    total = l.total := by
  rw [wordTotal_eq] at h
  exact (Arithmetic.checked_eq_ok_iff.mp h).2

theorem eq_offsetFor_of_wordOffset {l : Layout} {kind : Kind} {size offset : Nat}
    (h : l.wordOffset kind size = .ok offset) : offset = l.offsetFor kind size := by
  unfold wordOffset at h
  split at h
  · cases h
  · next total htotal =>
    obtain rfl := eq_total_of_wordTotal htotal
    unfold offsetFor nextOffset
    split at h
    · obtain rfl := Except.ok.inj h
      split <;> simp_all
    · next hsolid =>
      obtain ⟨hkind, hsize⟩ := not_or.mp hsolid
      rw [if_neg hkind, if_neg hsize]
      exact (Arithmetic.checked_eq_ok_iff.mp h).2

/-- Appending puts a field of positive size where it belongs, or changes nothing. -/
theorem append_eq_ok {l k : Layout} {v : Variant} {kind : Kind} {size : Nat}
    (h : l.append v kind size = .ok k) :
    (kind = .padding ∧ size = 0 ∧ k = l) ∨
    (0 < size ∧ (∃ field, Field.make v kind (l.offsetFor kind size) size = .ok field) ∧
      k = ⟨l.fields ++ [⟨l.offsetFor kind size, kind, size⟩]⟩) := by
  unfold append at h
  split at h
  · next hnothing =>
    cases h
    exact .inl ⟨hnothing.1, hnothing.2, rfl⟩
  · split at h
    · cases h
    · next offset hoffset =>
      obtain rfl := eq_offsetFor_of_wordOffset hoffset
      split at h
      · cases h
      · next field made =>
        cases h
        refine .inr ⟨Field.make_size_pos made, ⟨field, made⟩, ?_⟩
        rw [Field.make_eq made]

/-- Appending never moves the end back. -/
theorem total_le_of_append {l k : Layout} {v : Variant} {kind : Kind} {size : Nat}
    (h : l.append v kind size = .ok k) : l.total ≤ k.total := by
  rcases append_eq_ok h with ⟨_, _, rfl⟩ | ⟨_, _, rfl⟩
  · exact Nat.le_refl _
  · have := l.total_le_offsetFor kind size
    simp only [total_concat, Field.stop]
    omega

/-- Appending an integer or a capability moves the end forward. -/
theorem total_lt_of_append {l k : Layout} {v : Variant} {kind : Kind} {size : Nat}
    (h : l.append v kind size = .ok k) (solid : kind ≠ .padding) : l.total < k.total := by
  rcases append_eq_ok h with ⟨padding, _, _⟩ | ⟨positive, _, rfl⟩
  · exact absurd padding solid
  · have := l.total_le_offsetFor kind size
    simp only [total_concat, Field.stop]
    omega

end Layout

end CapFixture
