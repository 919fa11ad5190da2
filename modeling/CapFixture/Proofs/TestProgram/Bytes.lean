import Mathlib.Data.Int.ModEq
import Mathlib.Data.List.GetD

/-!
# Bytes

Numbers as the bytes that stand for them, and memories that bytes are written to.

## Main definitions

- `bytesOf`, `signed` — a number as bytes, and bytes as a number in two's complement
- `Memory.read`, `Memory.write` — some bytes of a memory in a row
-/

namespace CapFixture.TestProgram

/-! ### Numbers -/

/-- The lowest bytes of a number, least first. -/
def bytesOf : Nat → Nat → List UInt8
  | 0, _ => []
  | count + 1, n => UInt8.ofNat n :: bytesOf count (n / 256)

/-- The number that bytes stand for, least first. -/
def unsigned : List UInt8 → Nat
  | [] => 0
  | b :: bs => b.toNat + 256 * unsigned bs

/-- The number that bytes stand for in two's complement. -/
def signed (bytes : List UInt8) : Int := (unsigned bytes : Int).bmod (256 ^ bytes.length)

@[simp]
theorem length_bytesOf (count n : Nat) : (bytesOf count n).length = count := by
  induction count generalizing n with
  | zero => rfl
  | succ count ih => rw [bytesOf, List.length_cons, ih]

theorem unsigned_bytesOf (count n : Nat) : unsigned (bytesOf count n) = n % 256 ^ count := by
  induction count generalizing n with
  | zero => rw [bytesOf, unsigned, Nat.pow_zero, Nat.mod_one]
  | succ count ih =>
    rw [bytesOf, unsigned, ih, Nat.pow_succ', Nat.mod_mul]
    rfl

theorem bytesOf_unsigned (bytes : List UInt8) : bytesOf bytes.length (unsigned bytes) = bytes := by
  induction bytes with
  | nil => rfl
  | cons b bytes ih =>
    have hsmall := b.toNat_lt
    have hbyte : UInt8.ofNat (b.toNat + 256 * unsigned bytes) = b := by
      apply UInt8.toNat_inj.mp
      rw [UInt8.toNat_ofNat']
      omega
    have hrest : (b.toNat + 256 * unsigned bytes) / 256 = unsigned bytes := by omega
    rw [List.length_cons, unsigned, bytesOf, hbyte, hrest, ih]

/-- A number below half the range is read back as it was written. -/
theorem signed_bytesOf {count n : Nat} (h : 2 * n < 256 ^ count) :
    signed (bytesOf count n) = n := by
  rw [signed, length_bytesOf, unsigned_bytesOf, Nat.mod_eq_of_lt (by omega)]
  apply Int.bmod_eq_of_le <;> omega

/-- The first byte is the number modulo 256, whatever its sign. -/
theorem signed_cons_emod (b : UInt8) (bs : List UInt8) : signed (b :: bs) % 256 = b.toNat := by
  have hdvd : (256 : Int) ∣ (256 ^ (b :: bs).length : Nat) := by
    rw [List.length_cons, Nat.pow_succ']
    push_cast
    exact Int.dvd_mul_right _ _
  have hbyte := b.toNat_lt
  rw [signed, ← Int.emod_emod_of_dvd _ hdvd, Int.bmod_emod, Int.emod_emod_of_dvd _ hdvd, unsigned]
  omega

/-! ### Memories -/

/-- The byte at each place. Places are counted from the start of a buffer. -/
abbrev Memory := Int → UInt8

namespace Memory

variable {memory : Memory} {start other : Int} {bytes : List UInt8} {count : Nat}

/-- So many bytes from a place on. -/
def read (memory : Memory) (start : Int) (count : Nat) : List UInt8 :=
  (List.range count).map fun i : Nat => memory (start + i)

/-- The memory with the bytes written from a place on. -/
def write (memory : Memory) (start : Int) (bytes : List UInt8) : Memory := fun i =>
  if start ≤ i then bytes.getD (i - start).toNat (memory i) else memory i

@[simp]
theorem length_read : (memory.read start count).length = count := by
  simp [read]

theorem read_succ :
    memory.read start (count + 1) = memory start :: memory.read (start + 1) count := by
  simp only [read, List.range_succ_eq_map, List.map_cons, List.map_map, Int.natCast_zero,
    Int.add_zero]
  refine congrArg _ (List.map_congr_left fun i _ => congrArg memory ?_)
  simp only [Nat.succ_eq_add_one]
  omega

theorem mem_read {i : Int} (hstart : start ≤ i) (hstop : i < start + count) :
    memory i ∈ memory.read start count := by
  refine List.mem_map.mpr ⟨(i - start).toNat, List.mem_range.mpr (by omega), congrArg memory ?_⟩
  omega

theorem write_of_outside {i : Int} (h : i < start ∨ start + bytes.length ≤ i) :
    memory.write start bytes i = memory i := by
  unfold write
  split
  · exact List.getD_eq_default _ _ (by omega)
  · rfl

theorem write_of_lt {i : Nat} (h : i < bytes.length) :
    memory.write start bytes (start + i) = bytes[i] := by
  rw [write, if_pos (by omega), add_sub_cancel_left, Int.toNat_natCast]
  exact List.getD_eq_getElem _ _ h

/-- What has been written can be read back. -/
theorem read_write_self : (memory.write start bytes).read start bytes.length = bytes := by
  refine List.ext_getElem length_read fun i _ hi => ?_
  simp only [read, List.getElem_map, List.getElem_range]
  exact write_of_lt hi

/-- Bytes that are not written to stay. -/
theorem read_write_of_apart
    (h : start + bytes.length ≤ other ∨ other + count ≤ start) :
    (memory.write start bytes).read other count = memory.read other count := by
  refine List.map_congr_left fun i hi => write_of_outside ?_
  have hlt := List.mem_range.mp hi
  omega

end Memory

end CapFixture.TestProgram
