import BattLock.Lib.LittleEndian
import BattLock.Lib.Ieee
import BattLock.Lib.Python

/-!
# The `struct` module

Packing and unpacking of the format characters `B`, `I` (unsigned integers of one and four
bytes) and `f` (binary32), little-endian. A Python `float` is a binary64 number: packing it as
`f` rounds it, unpacking is exact. A number too large for `f` is refused where the format names a
byte order and packed as an infinity where it does not.
-/

namespace Python.Struct

open Ieee

/-- An unsigned integer of `n` bytes; `struct.error` outside its range. -/
def packUInt (n : Nat) (v : Int) : Except Err Bytes :=
  if 0 ≤ v ∧ v < 256 ^ n then .ok (LittleEndian.bytes n v.toNat) else .error .structError

/-- A `float` as `<f`; `OverflowError` when it is too large for the format. -/
def packFloat (x : Binary64) : Except Err Bytes :=
  match narrow? x with
  | some y => .ok (LittleEndian.bytes 4 y.toBits)
  | none => .error .overflowError

/-- A `float` as `f` in the native byte order. -/
def packNativeFloat (x : Binary64) : Bytes := LittleEndian.bytes 4 (narrow x).toBits

def unpackUInt (data : Bytes) : Int := LittleEndian.value data

def unpackFloat (data : Bytes) : Binary64 := widen (.ofBits (LittleEndian.value data))

theorem packUInt_of_lt {n : Nat} {v : Int} (h0 : 0 ≤ v) (hlt : v < 256 ^ n) :
    packUInt n v = .ok (LittleEndian.bytes n v.toNat) := if_pos ⟨h0, hlt⟩

theorem packUInt_ok {n : Nat} {v : Int} {b : Bytes} (h : packUInt n v = .ok b) :
    b.length = n ∧ unpackUInt b = v := by
  unfold packUInt at h
  split at h
  · rename_i hv
    cases h
    have hlt : v.toNat < 256 ^ n := (Int.toNat_lt hv.1).2 (by push_cast; exact hv.2)
    refine ⟨LittleEndian.length_bytes _ _, ?_⟩
    rw [unpackUInt, LittleEndian.value_bytes_of_lt hlt, Int.toNat_of_nonneg hv.1]
  · cases h

theorem packFloat_ok {x : Binary64} {b : Bytes} (h : packFloat x = .ok b) :
    b.length = 4 ∧ unpackFloat b = round32 x := by
  unfold packFloat at h
  split at h
  · rename_i y hy
    cases h
    have hlt : y.toBits < 256 ^ 4 := y.toBits_lt
    refine ⟨LittleEndian.length_bytes _ _, ?_⟩
    rw [unpackFloat, LittleEndian.value_bytes_of_lt hlt, Binary.ofBits_toBits, round32, narrow, hy]
    rfl
  · cases h

theorem packNativeFloat_spec (x : Binary64) :
    (packNativeFloat x).length = 4 ∧ unpackFloat (packNativeFloat x) = round32 x := by
  have hlt : (narrow x).toBits < 256 ^ 4 := (narrow x).toBits_lt
  refine ⟨LittleEndian.length_bytes _ _, ?_⟩
  rw [unpackFloat, packNativeFloat, LittleEndian.value_bytes_of_lt hlt, Binary.ofBits_toBits,
    round32]

/-- The two agree where both return. -/
theorem packNativeFloat_of_packFloat {x : Binary64} {b : Bytes} (h : packFloat x = .ok b) :
    packNativeFloat x = b := by
  unfold packFloat at h
  split at h
  · rename_i y hy
    cases h
    rw [packNativeFloat, narrow, hy]
    rfl
  · cases h

/-! ## Packing what was unpacked -/

/-- Only a number that fits is packed. -/
theorem fits_of_packUInt {n : Nat} {v : Int} {b : Bytes} (h : packUInt n v = .ok b) :
    0 ≤ v ∧ v < 256 ^ n := by
  by_contra hv
  rw [packUInt, if_neg hv] at h
  cases h

theorem packUInt_unpackUInt {n : Nat} {b : Bytes} (h : b.length = n) :
    packUInt n (unpackUInt b) = .ok b := by
  have hlt : LittleEndian.value b < 256 ^ n := by
    rw [← h]
    exact LittleEndian.value_lt b
  rw [unpackUInt, packUInt_of_lt (Int.natCast_nonneg _) (by exact_mod_cast hlt),
    Int.toNat_natCast, ← h, LittleEndian.bytes_value]

/-- A binary32 number is packed as its bit pattern. -/
theorem packFloat_widen {y : Binary32} (hy : y.val ≠ .nan) :
    packFloat (widen y) = .ok (LittleEndian.bytes 4 y.toBits) := by
  rw [packFloat, narrow?_widen hy]

theorem packFloat_unpackFloat {b : Bytes} (h : b.length = 4) (hnan : (unpackFloat b).val ≠ .nan) :
    packFloat (unpackFloat b) = .ok b := by
  have hlt : LittleEndian.value b < 2 ^ (1 + 8 + 23) := by
    have := LittleEndian.value_lt b
    rwa [h] at this
  rw [unpackFloat, val_widen] at hnan
  rw [unpackFloat, packFloat_widen hnan, Binary.toBits_ofBits hlt, ← h, LittleEndian.bytes_value]

theorem round32_widen {y : Binary32} (hy : y.val ≠ .nan) : round32 (widen y) = widen y := by
  rw [round32, narrow, narrow?_widen hy]
  rfl

end Python.Struct
