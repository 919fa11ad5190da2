import Mathlib.Data.List.Basic
import CapFixture.TestProgram.Statement
import CapFixture.Proofs.Layout
import CapFixture.Proofs.Results
import CapFixture.Proofs.Variant.Validity

/-!
# Accesses

The bytes that the stores and the loads of a test touch. They are read off its statements, of which
the shifts of the pointer say where they are.

## Main definitions

- `Access` — a value of a C type at a place that is counted from the start of the buffer
- `writes`, `stores`, `loads`, `checks` — the accesses and the assertions of a test in their order
- `unwritten` — the loads of what has not been stored
- `allocated` — how many bytes the buffer of a test has
- `Field.content` — what is written to a field, and what is asked of it
- `Field.Accessible` — the programs access exactly the bytes of the field
- `Layout.Writable` — a buffer can have all fields
-/

namespace CapFixture

theorem CType.bytes_pos {width : Nat} (hw : 0 < width) (type : CType) : 0 < type.bytes width := by
  cases type with
  | charPtr => exact hw
  | _ => exact Nat.zero_lt_succ _

namespace TestProgram

/-- A value of a C type that is written or read. The place of its first byte is counted from the
start of the buffer, and it may be outside of the buffer. -/
structure Access where
  type : CType
  start : Int
  deriving DecidableEq, Repr

namespace Access

/-- One past the last byte, where capabilities have the given width. -/
def stop (width : Nat) (a : Access) : Int := a.start + a.type.bytes width

/-- The byte at the place is one of those that are written or read. -/
def Covers (width : Nat) (a : Access) (i : Int) : Prop := a.start ≤ i ∧ i < a.stop width

/-- A buffer of this size has all the bytes. -/
def Inside (width size : Nat) (a : Access) : Prop := 0 ≤ a.start ∧ a.stop width ≤ size

/-- A buffer of this size has none of the bytes. -/
def Outside (width size : Nat) (a : Access) : Prop :=
  ∀ i, a.Covers width i → i < 0 ∨ (size : Int) ≤ i

/-- Two accesses have a byte in common. -/
def Meets (width : Nat) (a b : Access) : Prop := ∃ i, a.Covers width i ∧ b.Covers width i

instance (width size : Nat) (a : Access) : Decidable (a.Inside width size) :=
  inferInstanceAs (Decidable (_ ∧ _))

theorem Meets.symm {width : Nat} {a b : Access} (h : a.Meets width b) : b.Meets width a :=
  h.imp fun _ => And.symm

instance {width : Nat} : Std.Symm fun a b : Access => ¬ a.Meets width b :=
  ⟨fun _ _ => mt Meets.symm⟩

theorem covers_start {width : Nat} (hw : 0 < width) (a : Access) : a.Covers width a.start := by
  have hpositive := a.type.bytes_pos hw
  rw [Covers, stop]
  omega

theorem not_inside_of_outside {width size : Nat} (hw : 0 < width) {a : Access}
    (h : a.Outside width size) : ¬ a.Inside width size := by
  rintro ⟨hstart, hstop⟩
  have hcovers := a.covers_start hw
  rcases h a.start hcovers with hlow | hhigh
  · omega
  · have hlt := hcovers.2
    omega

/-- Of two accesses without a common byte one stops before the other starts. -/
theorem apart_of_not_meets {width : Nat} (hw : 0 < width) {a b : Access}
    (h : ¬ a.Meets width b) : a.stop width ≤ b.start ∨ b.stop width ≤ a.start := by
  by_contra hclose
  obtain ⟨hab, hba⟩ := not_or.mp hclose
  have ha := a.covers_start hw
  have hb := b.covers_start hw
  -- the later of the two starts is a byte of both
  rcases Int.le_total a.start b.start with hle | hle
  · exact h ⟨b.start, ⟨hle, by omega⟩, hb⟩
  · exact h ⟨a.start, ha, hle, by omega⟩

end Access

/-! ### The accesses of a test -/

/-- Where `buf` points after a statement, if it points to `pointer` before. -/
def Statement.pointerAfter (pointer : Int) : Statement → Int
  | allocate _ _ => 0
  | shift displacement _ => pointer + displacement
  | _ => pointer

/-- The statements with where `buf` points before each of them. -/
def located (pointer : Int) : List Statement → List (Int × Statement)
  | [] => []
  | s :: rest => (pointer, s) :: located (s.pointerAfter pointer) rest

def Place.access (place : Place) (pointer : Int) : Access := ⟨place.type, pointer + place.offset⟩

/-- The stores of a test in order, each with what it writes. -/
def writes (test : List Statement) : List (Access × Value) :=
  (located 0 test).filterMap fun
    | (pointer, .store place content) => some (place.access pointer, content)
    | _ => none

/-- The stores of a test in order. -/
def stores (test : List Statement) : List Access := (writes test).map Prod.fst

/-- The loads of a test in order, each with the index of its variable. -/
def loads (test : List Statement) : List (Access × Nat) :=
  (located 0 test).filterMap fun
    | (pointer, .load index place) => some (place.access pointer, index)
    | _ => none

/-- The assertions of a test in order: about which variable, and what it is compared with. -/
def checks (test : List Statement) : List (Nat × Value) :=
  test.filterMap fun
    | .check index expected => some (index, expected)
    | _ => none

/-- The loads that have the place and the type of no store. -/
def unwritten (test : List Statement) : List Access :=
  ((loads test).map Prod.fst).filter (· ∉ stores test)

/-- How many bytes a test allocates before it does anything else. -/
def allocated : List Statement → Nat
  | .allocate bytes _ :: _ => bytes
  | _ => 0

theorem mem_stores {test : List Statement} {a : Access} :
    a ∈ stores test ↔ ∃ content, (a, content) ∈ writes test := by
  simp [stores]

theorem mem_unwritten {test : List Statement} {a : Access} :
    a ∈ unwritten test ↔ a ∈ (loads test).map Prod.fst ∧ a ∉ stores test := by
  rw [unwritten, List.mem_filter, decide_eq_true_iff]

theorem located_append (pointer : Int) (front back : List Statement) :
    located pointer (front ++ back) =
      located pointer front ++ located (front.foldl Statement.pointerAfter pointer) back := by
  induction front generalizing pointer with
  | nil => rfl
  | cons s front ih =>
    rw [List.cons_append, located, located, ih, List.foldl_cons, List.cons_append]

/-- Statements that leave `buf` where it is. -/
theorem located_map_of_still {α : Type} {f : α → Statement}
    (h : ∀ a pointer, (f a).pointerAfter pointer = pointer) (as : List α) (pointer : Int) :
    located pointer (as.map f) = as.map fun a => (pointer, f a) := by
  induction as with
  | nil => rfl
  | cons a as ih => rw [List.map_cons, located, h, ih, List.map_cons]

theorem foldl_pointerAfter_of_still {α : Type} {f : α → Statement}
    (h : ∀ a pointer, (f a).pointerAfter pointer = pointer) (as : List α) (pointer : Int) :
    (as.map f).foldl Statement.pointerAfter pointer = pointer := by
  induction as with
  | nil => rfl
  | cons a as ih => rw [List.map_cons, List.foldl_cons, h, ih]

end TestProgram

/-! ### Fields as accesses -/

namespace Field

open TestProgram

/-- The C type of a field that has one. -/
def type (f : Field) : CType := f.cType.toOption.getD default

/-- How programs access a field that has a C type. -/
def place (f : Field) : Place := ⟨f.type, f.offset⟩

/-- The access of a field while `buf` points to `pointer`. -/
def access (f : Field) (pointer : Int) : Access := f.place.access pointer

/-- What a field holds: `hello` if it is a capability, and `value` otherwise. -/
def content (f : Field) : Value := if f.kind = .ptr then .hello else .value

theorem content_of_ptr {f : Field} (h : f.kind = .ptr) : f.content = .hello := if_pos h

theorem content_of_int {f : Field} (h : f.kind = .int) : f.content = .value :=
  if_neg (by rw [h]; decide)

theorem checkOf_eq (index : Nat) (f : Field) :
    Statement.checkOf index f = .check index f.content := by
  unfold Statement.checkOf content
  cases f.kind <;> rfl

/-- Programs access the bytes of the field and no others. -/
structure Accessible (v : Variant) (f : Field) : Prop where
  cType_eq : f.cType = .ok f.type
  bytes_eq : f.type.bytes v.capabilityWidth = f.size

variable {v : Variant} {f g : Field} {pointer : Int}

theorem overlaps_iff : f.overlaps g = true ↔ f.offset < g.stop ∧ g.offset < f.stop := by
  simp [Field.overlaps]

/-- Programs can access what a valid variant allows. -/
theorem accessible_of_allows (hv : v.Valid) (ha : v.allows f.kind f.size = true)
    (hk : f.kind ≠ .padding) : f.Accessible v := by
  obtain ⟨offset, kind, size⟩ := f
  cases kind with
  | padding => exact absurd rfl hk
  | ptr =>
    obtain rfl : size = v.capabilityWidth := by simpa [Variant.allows] using ha
    exact ⟨rfl, rfl⟩
  | int =>
    have hsize := hv.int_supported size (by simpa [Variant.allows] using ha)
    simp only [Variant.supportedWidths, List.mem_cons, List.not_mem_nil, or_false] at hsize
    rcases hsize with rfl | rfl | rfl | rfl | rfl <;> exact ⟨rfl, rfl⟩

@[simp]
theorem access_type (f : Field) (pointer : Int) : (f.access pointer).type = f.type := rfl

@[simp]
theorem access_start (f : Field) (pointer : Int) : (f.access pointer).start = pointer + f.offset :=
  rfl

namespace Accessible

theorem access_stop (h : f.Accessible v) (pointer : Int) :
    (f.access pointer).stop v.capabilityWidth = pointer + f.stop := by
  rw [Access.stop, access_type, h.bytes_eq, access_start, Field.stop]
  omega

theorem inside_iff (h : f.Accessible v) {size : Nat} :
    (f.access 0).Inside v.capabilityWidth size ↔ f.stop ≤ size := by
  rw [Access.Inside, h.access_stop, access_start]
  omega

theorem ofField_eq (h : f.Accessible v) : Place.ofField f = .ok f.place := by
  rw [Place.ofField, h.cType_eq]
  rfl

theorem storeOf_eq (h : f.Accessible v) :
    Statement.storeOf f = .ok (.store f.place f.content) := by
  unfold Statement.storeOf content
  rw [h.ofField_eq]
  cases f.kind <;> rfl

theorem kind_eq (h : f.Accessible v) : f.kind = if f.type = .charPtr then .ptr else .int := by
  have htype := h.cType_eq
  unfold cType at htype
  split at htype
  · next hkind => rw [← Except.ok.inj htype, if_pos rfl, hkind]
  all_goals first
    | next hkind _ => rw [← Except.ok.inj htype, if_neg (by decide), hkind]
    | cases htype

theorem type_eq_charPtr_iff (h : f.Accessible v) : f.type = .charPtr ↔ f.kind = .ptr := by
  rw [h.kind_eq]
  split <;> simp_all

/-- Capabilities are those fields that hold `hello`. -/
theorem content_eq_hello_iff (h : f.Accessible v) : f.content = .hello ↔ f.type = .charPtr := by
  rw [h.type_eq_charPtr_iff, content]
  split <;> simp_all

theorem type_ne_charPtr (h : f.Accessible v) (hkind : f.kind = .int) : f.type ≠ .charPtr := by
  rw [Ne, h.type_eq_charPtr_iff, hkind]
  decide

theorem meets_of_overlaps (hw : 0 < v.capabilityWidth) (hf : f.Accessible v)
    (hg : g.Accessible v) (h : f.overlaps g = true) :
    (f.access pointer).Meets v.capabilityWidth (g.access pointer) := by
  have hfsize := f.type.bytes_pos hw
  have hgsize := g.type.bytes_pos hw
  rw [hf.bytes_eq] at hfsize
  rw [hg.bytes_eq] at hgsize
  obtain ⟨hfg, hgf⟩ := overlaps_iff.mp h
  rw [stop] at hfg hgf
  -- the later of the two starts is a byte of both
  refine ⟨pointer + max f.offset g.offset, ⟨?_, ?_⟩, ?_, ?_⟩
  · rw [access_start]
    omega
  · rw [hf.access_stop, stop]
    omega
  · rw [access_start]
    omega
  · rw [hg.access_stop, stop]
    omega

/-- The C type and the place of a field determine the field. -/
theorem eq_of_access_eq (hf : f.Accessible v) (hg : g.Accessible v)
    (h : f.access pointer = g.access pointer) : f = g := by
  have htype : f.type = g.type := congrArg Access.type h
  have hstart : pointer + f.offset = pointer + g.offset := congrArg Access.start h
  have hoffset : f.offset = g.offset := by omega
  have hkind : f.kind = g.kind := by rw [hf.kind_eq, hg.kind_eq, htype]
  have hsize : f.size = g.size := by rw [← hf.bytes_eq, ← hg.bytes_eq, htype]
  cases f
  cases g
  simp only [Field.mk.injEq]
  exact ⟨hoffset, hkind, hsize⟩

end Accessible

end Field

/-- Programs access the bytes of the fields and no others. -/
def Layout.Accessible (v : Variant) (l : Layout) : Prop := ∀ f ∈ l.fields, f.Accessible v

theorem Layout.Accessible.without {v : Variant} {l : Layout} (h : l.Accessible v) (kind : Kind) :
    (l.without kind).Accessible v :=
  fun f hf => h f (List.mem_filter.mp hf).1

theorem Layout.Accessible.mem_map_access_iff {v : Variant} {l : Layout} {f : Field} {pointer : Int}
    (h : l.Accessible v) (hf : f.Accessible v) :
    f.access pointer ∈ l.fields.map (Field.access · pointer) ↔ f ∈ l.fields := by
  constructor
  · intro hmem
    obtain ⟨g, hg, haccess⟩ := List.mem_map.mp hmem
    exact hf.eq_of_access_eq (h g hg) haccess.symm ▸ hg
  · exact fun hmem => List.mem_map_of_mem hmem

theorem Layout.Solid.accessible {v : Variant} {l : Layout} (hv : v.Valid) (h : l.Solid v) :
    l.Accessible v :=
  fun f hf => Field.accessible_of_allows hv (h.allowed f hf) (h.solid f hf)

/-- Programs can allocate the layout and access the bytes of its fields. -/
structure Layout.Writable (v : Variant) (l : Layout) : Prop where
  accessible : l.Accessible v
  fits : l.total < wordSize

/-! ### The accesses of a scenario -/

namespace TestProgram

variable {v : Variant} {s : Scenario}

namespace Scenario

/-- The statements of a test whose buffer has a size and whose fields all have a C type. -/
def body (s : Scenario) : List Statement :=
  .allocate s.written.total s.opacity.first ::
    (s.written.fields.map (fun f => .store f.place f.content) ++
      .shift s.displacement s.opacity.second ::
        ((s.read.fields.map Field.place).zipIdx.map (fun load => .load load.2 load.1) ++
          s.read.fields.zipIdx.map fun f => .check f.2 f.1.content))

theorem statements_eq (hw : s.written.Writable v) (hr : s.read.Accessible v) :
    s.statements = .ok s.body := by
  have htotal : s.written.wordTotal = .ok s.written.total :=
    s.written.wordTotal_eq.trans (Arithmetic.checked_of_lt hw.fits _)
  have hstores := mapM_eq_ok_map fun f hf => (hw.accessible f hf).storeOf_eq
  have hloads := mapM_eq_ok_map fun f hf => (hr f hf).ofField_eq
  rw [statements, htotal, hstores, hloads]
  show Except.ok _ = Except.ok _
  rw [List.mapIdx_eq_zipIdx_map, List.mapIdx_eq_zipIdx_map, body]
  simp only [List.cons_append, List.append_assoc, Field.checkOf_eq]

theorem located_body (s : Scenario) :
    located 0 s.body =
      (0, .allocate s.written.total s.opacity.first) ::
        (s.written.fields.map (fun f => (0, .store f.place f.content)) ++
          (0, .shift s.displacement s.opacity.second) ::
            ((s.read.fields.map Field.place).zipIdx.map
                (fun load => (s.displacement, .load load.2 load.1)) ++
              s.read.fields.zipIdx.map
                fun f => (s.displacement, .check f.2 f.1.content))) := by
  rw [body, located, located_append, located_map_of_still (fun _ _ => rfl),
    foldl_pointerAfter_of_still (fun _ _ => rfl), located, located_append,
    located_map_of_still (fun _ _ => rfl), foldl_pointerAfter_of_still (fun _ _ => rfl),
    located_map_of_still (fun _ _ => rfl)]
  simp only [Statement.pointerAfter, Int.zero_add]

@[simp]
theorem allocated_body (s : Scenario) : allocated s.body = s.written.total := rfl

@[simp]
theorem writes_body (s : Scenario) :
    writes s.body = s.written.fields.map fun f => (f.access 0, f.content) := by
  simp [writes, located_body, List.filterMap_append, List.filterMap_map, Field.access]

@[simp]
theorem stores_body (s : Scenario) : stores s.body = s.written.fields.map (Field.access · 0) := by
  rw [stores, writes_body, List.map_map]
  rfl

@[simp]
theorem loads_body (s : Scenario) :
    loads s.body = (s.read.fields.map (Field.access · s.displacement)).zipIdx := by
  simp [loads, located_body, List.filterMap_append, List.filterMap_map, Function.comp_def,
    Field.access, List.zipIdx_map]

theorem map_fst_loads_body (s : Scenario) :
    (loads s.body).map Prod.fst = s.read.fields.map (Field.access · s.displacement) := by
  rw [loads_body, List.zipIdx_map_fst]

theorem forall_mem_loads_body {p : Access → Prop} :
    (∀ load ∈ loads s.body, p load.1) ↔ ∀ f ∈ s.read.fields, p (f.access s.displacement) := by
  rw [← List.forall_mem_map, map_fst_loads_body, List.forall_mem_map]

/-- Every variable is asserted about, and compared with what its field holds. -/
theorem checks_body (s : Scenario) :
    checks s.body = s.read.fields.zipIdx.map fun f => (f.2, f.1.content) := by
  simp [checks, body, List.filterMap_append, List.filterMap_map]

theorem mem_writes_body {write : Access × Value} :
    write ∈ writes s.body ↔ ∃ f ∈ s.written.fields, (f.access 0, f.content) = write := by
  rw [writes_body, List.mem_map]

theorem mem_stores_body {a : Access} :
    a ∈ stores s.body ↔ ∃ f ∈ s.written.fields, f.access 0 = a := by
  rw [stores_body, List.mem_map]

theorem mem_loads_body {load : Access × Nat} :
    load ∈ loads s.body ↔
      ∃ f, s.read.fields[load.2]? = some f ∧ f.access s.displacement = load.1 := by
  rw [loads_body, List.mem_zipIdx_iff_getElem?, List.getElem?_map, Option.map_eq_some_iff]

theorem mem_checks_body {check : Nat × Value} :
    check ∈ checks s.body ↔ ∃ f, s.read.fields[check.1]? = some f ∧ f.content = check.2 := by
  obtain ⟨index, expected⟩ := check
  rw [checks_body, List.mem_map]
  constructor
  · rintro ⟨⟨f, i⟩, hf, heq⟩
    cases heq
    exact ⟨f, List.mem_zipIdx_iff_getElem?.mp hf, rfl⟩
  · rintro ⟨f, hf, hcontent⟩
    exact ⟨(f, index), List.mem_zipIdx_iff_getElem?.mpr hf, Prod.ext rfl hcontent⟩

/-- A variable that holds a capability is the one that is compared with `hello`. -/
theorem expected_eq_hello_iff (hr : s.read.Accessible v) {load : Access × Nat} {expected : Value}
    (hload : load ∈ loads s.body) (hcheck : (load.2, expected) ∈ checks s.body) :
    expected = .hello ↔ load.1.type = .charPtr := by
  obtain ⟨f, hf, haccess⟩ := mem_loads_body.mp hload
  obtain ⟨g, hg, rfl⟩ := mem_checks_body.mp hcheck
  obtain rfl : f = g := Option.some.inj (hf.symm.trans hg)
  rw [(hr f (List.mem_of_getElem? hf)).content_eq_hello_iff, ← haccess, Field.access_type]

/-- What `hello` is written to is a capability. -/
theorem content_eq_hello_iff (hw : s.written.Accessible v) {write : Access × Value}
    (hwrite : write ∈ writes s.body) : write.2 = .hello ↔ write.1.type = .charPtr := by
  obtain ⟨f, hf, rfl⟩ := mem_writes_body.mp hwrite
  exact (hw f hf).content_eq_hello_iff

/-- What a variable is compared with has been stored at the place that it is loaded from, if
anything has been stored there as the same type. -/
theorem mem_writes_of_mem_stores (hw : s.written.Accessible v) (hr : s.read.Accessible v)
    {load : Access × Nat} {expected : Value} (hload : load ∈ loads s.body)
    (hcheck : (load.2, expected) ∈ checks s.body) (hstored : load.1 ∈ stores s.body) :
    (load.1, expected) ∈ writes s.body := by
  obtain ⟨content, hwrite⟩ := mem_stores.mp hstored
  have hexpected := expected_eq_hello_iff hr hload hcheck
  have hcontent := content_eq_hello_iff hw hwrite
  -- both are `hello` for the same types
  obtain rfl : content = expected := by
    cases content <;> cases expected <;> simp_all
  exact hwrite

/-- What is not moved and has not been written is a field of its own. -/
theorem unwritten_body (hd : s.displacement = 0) (hw : s.written.Accessible v)
    (hr : s.read.Accessible v) :
    unwritten s.body =
      (s.read.fields.filter (· ∉ s.written.fields)).map (Field.access · 0) := by
  rw [unwritten, map_fst_loads_body, stores_body, hd, List.filter_map]
  congr 1
  refine List.filter_congr fun f hf => ?_
  simp only [Function.comp_apply, hw.mem_map_access_iff (hr f hf)]

/-- The buffer of a test has the bytes of all its stores. -/
theorem inside_of_mem_stores (hv : v.Valid) (hw : s.written.Solid v) :
    ∀ a ∈ stores s.body, a.Inside v.capabilityWidth (allocated s.body) := by
  intro a ha
  obtain ⟨f, hf, rfl⟩ := mem_stores_body.mp ha
  exact (hw.accessible hv f hf).inside_iff.mpr (hw.stop_le_total hf)

/-- No two stores of a test have a byte in common. -/
theorem pairwise_stores (hv : v.Valid) (hw : s.written.Solid v) :
    (stores s.body).Pairwise fun a b => ¬ a.Meets v.capabilityWidth b := by
  rw [stores_body, List.pairwise_map]
  refine hw.disjoint.imp_of_mem ?_
  intro f g hf hg hstop
  rintro ⟨i, ⟨_, hif⟩, ⟨hig, _⟩⟩
  rw [(hw.accessible hv f hf).access_stop] at hif
  rw [Field.access_start] at hig
  omega

end Scenario

end TestProgram

end CapFixture
