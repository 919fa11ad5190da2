import Mathlib.Data.FinEnum
import Mathlib.Data.List.Perm.Subperm
import Mathlib.Data.Nat.Find
import Mathlib.Logic.Function.Basic
import CapFixture.Proofs.TestProgram.Access
import CapFixture.Proofs.TestProgram.Bytes

/-!
# Machines that run tests

A test runs over the bytes of its buffer, in which a machine represents pointers in some way. A run
ends at the first access that leaves the buffer or at the first assertion that does not hold.

## Main definitions

- `Machine` — how the pointer `hello` is represented, and what pointers lead to
- `Machine.value` — the fill byte that the prelude picks
- `State`, `Failure` — what a test has done so far, and how it can end early
- `Machine.step`, `Machine.run` — one statement, and all of them in order
-/

namespace CapFixture.TestProgram

/-- A machine on which capabilities have so many bytes. -/
structure Machine (width : Nat) where
  /-- The bytes of the pointer `hello`. -/
  hello : List UInt8
  length_hello : hello.length = width
  /-- The text that the pointer with these bytes leads to. -/
  text : List UInt8 → String
  text_hello : text hello = "hello"

/-- What a test has done so far. Before the allocation the contents of the buffer are arbitrary. -/
structure State where
  /-- How many bytes the buffer has. -/
  size : Nat
  memory : Memory
  /-- Where `buf` points, from the start of the buffer. -/
  pointer : Int
  /-- The bytes of the variable of each index. -/
  loaded : Nat → List UInt8

/-- Declares the variable of an index. -/
def State.assign (s : State) (index : Nat) (bytes : List UInt8) : State :=
  { s with loaded := Function.update s.loaded index bytes }

/-- Why a test ends early. -/
inductive Failure where
  /-- The buffer does not have all the bytes of the access. -/
  | outOfBounds (access : Access)
  /-- The variable of this index is not what it is compared with. -/
  | assertion (index : Nat) (expected : Value)
  deriving DecidableEq, Repr

/-- The failure is about this load, or about the assertion of its variable. Capabilities are
compared with `hello`, and integers with `value`. -/
def Failure.Concerns (load : Access × Nat) : Failure → Prop
  | outOfBounds access => access = load.1
  | assertion index expected => index = load.2 ∧ (expected = .hello ↔ load.1.type = .charPtr)

/-- The bytes of an access, where the buffer has this content. -/
def Access.bytesIn (width : Nat) (memory : Memory) (a : Access) : List UInt8 :=
  memory.read a.start (a.type.bytes width)

namespace Machine

variable {width : Nat}

/-! ### The fill byte -/

/-- Of one more candidates than `hello` has bytes, one is not among these. -/
theorem exists_fresh (m : Machine width) :
    ∃ n, (42 ≤ n ∧ ∀ b ∈ m.hello, b.toNat ≠ n) ∧ n ≤ 42 + width := by
  by_contra hnone
  have htaken : List.range' 42 (width + 1) ⊆ m.hello.map UInt8.toNat := by
    intro n hn
    obtain ⟨hlow, hhigh⟩ := List.mem_range'_1.mp hn
    by_contra hfree
    refine hnone ⟨n, ⟨hlow, fun b hb hbn => hfree ?_⟩, by omega⟩
    exact hbn ▸ List.mem_map_of_mem hb
  have hlength := (List.Nodup.subperm List.nodup_range' htaken).length_le
  rw [List.length_range', List.length_map, m.length_hello] at hlength
  omega

theorem exists_candidate (m : Machine width) : ∃ n, 42 ≤ n ∧ ∀ b ∈ m.hello, b.toNat ≠ n :=
  m.exists_fresh.imp fun _ h => h.1

/-- The fill byte: the prelude counts up from 42 to the first number that is no byte of `hello`. -/
def value (m : Machine width) : Nat := Nat.find m.exists_candidate

theorem value_le (m : Machine width) : m.value ≤ 42 + width := by
  obtain ⟨n, hn, hle⟩ := m.exists_fresh
  exact Nat.le_trans (Nat.find_le hn) hle

theorem toNat_ne_value (m : Machine width) {b : UInt8} (hb : b ∈ m.hello) : b.toNat ≠ m.value :=
  (Nat.find_spec m.exists_candidate).2 b hb

/-! ### Values -/

/-- What a value is as a number. The bytes of a pointer stand for one, least first. -/
def number (m : Machine width) : Value → Nat
  | .hello => unsigned m.hello
  | .value => m.value

/-- The bytes that a store writes: those of the value as one of the type. -/
def written (m : Machine width) (type : CType) (content : Value) : List UInt8 :=
  bytesOf (type.bytes width) (m.number content)

/-- What an assertion asks of the bytes of a variable: that they lead to the text of `hello`, or
that they are equal to `value`. -/
def Accepts (m : Machine width) (expected : Value) (bytes : List UInt8) : Prop :=
  match expected with
  | .hello => m.text bytes = "hello"
  | .value => signed bytes = m.value

instance (m : Machine width) (expected : Value) (bytes : List UInt8) :
    Decidable (m.Accepts expected bytes) :=
  match expected with
  | .hello => inferInstanceAs (Decidable (m.text bytes = "hello"))
  | .value => inferInstanceAs (Decidable (signed bytes = m.value))

@[simp]
theorem length_written (m : Machine width) (type : CType) (content : Value) :
    (m.written type content).length = type.bytes width :=
  length_bytesOf _ _

/-- A capability has room for all bytes of a pointer. -/
theorem written_hello (m : Machine width) : m.written .charPtr .hello = m.hello := by
  have hbytes := bytesOf_unsigned m.hello
  rwa [m.length_hello] at hbytes

theorem written_value (m : Machine width) (type : CType) :
    m.written type .value = bytesOf (type.bytes width) m.value := rfl

/-- Assertions accept what stores write, if capabilities are what `hello` is written to. The fill
byte is small enough for a signed byte. -/
theorem accepts_written (m : Machine width) (hpos : 0 < width) (hw : width ≤ 16) {type : CType}
    {content : Value} (h : content = .hello ↔ type = .charPtr) :
    m.Accepts content (m.written type content) := by
  cases content with
  | hello =>
    rw [h.mp rfl, written_hello]
    exact m.text_hello
  | value =>
    rw [written_value]
    apply signed_bytesOf
    calc 2 * m.value ≤ 2 * (42 + width) := Nat.mul_le_mul_left 2 m.value_le
      _ < 256 ^ 1 := by omega
      _ ≤ 256 ^ type.bytes width := Nat.pow_le_pow_right (by decide) (CType.bytes_pos hpos type)

/-- No other pointer leads to the text of `hello`. -/
def Faithful (m : Machine width) : Prop := ∀ bytes, m.text bytes = "hello" → bytes = m.hello

/-- A machine on which `hello` is zero and no other pointer leads anywhere. -/
instance : Inhabited (Machine width) where
  default := {
    hello := List.replicate width 0
    length_hello := List.length_replicate
    text := fun bytes => if bytes = List.replicate width 0 then "hello" else ""
    text_hello := if_pos rfl }

theorem faithful_default : (default : Machine width).Faithful := by
  intro bytes htext
  by_contra hother
  have hempty : "" = "hello" := (if_neg hother).symm.trans htext
  exact absurd hempty (by decide)

/-! ### Statements -/

def step (m : Machine width) (s : State) : Statement → Except Failure State
  | .allocate bytes _ => .ok { s with size := bytes, pointer := 0 }
  | .store place content =>
    let access := place.access s.pointer
    if access.Inside width s.size then
      .ok { s with memory := s.memory.write access.start (m.written access.type content) }
    else .error (.outOfBounds access)
  | .shift displacement _ => .ok { s with pointer := s.pointer + displacement }
  | .load index place =>
    let access := place.access s.pointer
    if access.Inside width s.size then
      .ok (s.assign index (access.bytesIn width s.memory))
    else .error (.outOfBounds access)
  | .check index expected =>
    if m.Accepts expected (s.loaded index) then .ok s else .error (.assertion index expected)

theorem step_store {m : Machine width} {s : State} {place : Place}
    (h : (place.access s.pointer).Inside width s.size) (content : Value) :
    m.step s (.store place content) = .ok { s with
      memory := s.memory.write (place.access s.pointer).start
        (m.written (place.access s.pointer).type content) } :=
  if_pos h

theorem step_load {m : Machine width} {s : State} {place : Place}
    (h : (place.access s.pointer).Inside width s.size) (index : Nat) :
    m.step s (.load index place) =
      .ok (s.assign index ((place.access s.pointer).bytesIn width s.memory)) :=
  if_pos h

theorem step_load_of_not_inside {m : Machine width} {s : State} {place : Place}
    (h : ¬ (place.access s.pointer).Inside width s.size) (index : Nat) :
    m.step s (.load index place) = .error (.outOfBounds (place.access s.pointer)) :=
  if_neg h

theorem step_check {m : Machine width} {s : State} {index : Nat} {expected : Value}
    (h : m.Accepts expected (s.loaded index)) : m.step s (.check index expected) = .ok s :=
  if_pos h

theorem step_check_of_not_accepts {m : Machine width} {s : State} {index : Nat}
    {expected : Value} (h : ¬ m.Accepts expected (s.loaded index)) :
    m.step s (.check index expected) = .error (.assertion index expected) :=
  if_neg h

/-- The statements in order, up to the first failure. -/
def run (m : Machine width) (s : State) (test : List Statement) : Except Failure State :=
  test.foldlM m.step s

end Machine

end CapFixture.TestProgram
