import BattLock.Lib.CArray

/-!
# Checked arithmetic and array accesses

The operations of C on small integers and arrays, failing where a result does not fit or an index
is outside of the array. A computation that succeeds has not wrapped around and has not left an
array, so that a model in plain arithmetic computes the same (`copy_eq` for the copying loop).
-/

namespace Checked

/-- What every `int` holds, however wide it is. -/
def intMax : Nat := 32767

/-- A sum in `int`. -/
def add (a b : Nat) : Option Nat := if a + b ≤ intMax then some (a + b) else none

/-- A difference that is not negative. -/
def sub (a b : Nat) : Option Nat := if b ≤ a then some (a - b) else none

/-- A value kept in a byte. -/
def narrow8 (v : Nat) : Option UInt8 := if v < 256 then some (.ofNat v) else none

/-- A value kept in 16 bits. -/
def narrow16 (v : Nat) : Option UInt16 := if v < 65536 then some (.ofNat v) else none

section
variable {α : Type} {n m : Nat}

/-- `array[i]`. -/
def load (array : Vector α n) (i : Nat) : Option α := array[i]?

/-- `array[i] = a`. -/
def store (array : Vector α n) (i : Nat) (a : α) : Option (Vector α n) :=
  if h : i < n then some (array.set i a h) else none

/-- `for (uint8_t j = 0; j < k; j++) dst[start + j] = src[off + j];` -/
def copy (dst : Vector α n) (start : Nat) (src : Vector α m) (off : Nat) :
    Nat → Option (Vector α n)
  | 0 => some dst
  | j + 1 => do
    let dst ← copy dst start src off j
    let a ← load src (← add off j)
    let dst ← store dst (← add start j) a
    let _ ← narrow8 (j + 1)
    return dst

end

/-! ## Where they succeed -/

theorem add_eq {a b : Nat} (h : a + b ≤ intMax) : add a b = some (a + b) := if_pos h

theorem sub_eq {a b : Nat} (h : b ≤ a) : sub a b = some (a - b) := if_pos h

theorem narrow8_toNat (v : UInt8) : narrow8 v.toNat = some v := by
  rw [narrow8, if_pos v.toNat_lt, UInt8.ofNat_toNat]

theorem narrow8_eq {v : Nat} (h : v < 256) : narrow8 v = some (.ofNat v) := if_pos h

theorem narrow16_eq {v : Nat} (h : v < 65536) : narrow16 v = some (.ofNat v) := if_pos h

theorem load_eq {α : Type} {n : Nat} (array : Vector α n) (i : Fin n) :
    load array i.val = some (array.get i) := by
  rw [load, Vector.getElem?_eq_getElem i.isLt]
  rfl

variable {n m : Nat}

/-- **A copy within both arrays succeeds**, and is the copy that is not checked. -/
theorem copy_eq {dst : Vector UInt8 n} {src : Vector UInt8 m} {start off : Nat} (hn : n ≤ intMax)
    (hm : m ≤ intMax) {k : Nat} (hk : k < 256) (hdst : start + k ≤ n) (hsrc : off + k ≤ m) :
    copy dst start src off k = some (CArray.copyBytes dst start src off k) := by
  induction k with
  | zero => rfl
  | succ j ih =>
    have hi : start + j < n := by omega
    have ho : off + j < m := by omega
    have hload : load src (off + j) = some (src.toList.getD (off + j) 0) := by
      rw [load, Vector.getElem?_eq_getElem ho, List.getD_eq_getElem _ _ (by simpa using ho),
        Vector.getElem_toList]
    rw [copy, ih (by omega) (by omega) (by omega), CArray.copyBytes]
    have hset : store (CArray.copyBytes dst start src off j) (start + j)
        (src.toList.getD (off + j) 0) = some ((CArray.copyBytes dst start src off j).setIfInBounds
          (start + j) (src.toList.getD (off + j) 0)) := by
      rw [store, dif_pos hi, Option.some_inj, ← Vector.toList_inj, Vector.toList_set,
        Vector.toList_setIfInBounds]
    simp only [Option.bind_eq_bind, Option.bind_some, add_eq (Nat.le_trans (Nat.le_of_lt ho) hm),
      add_eq (Nat.le_trans (Nat.le_of_lt hi) hn), hload, hset, narrow8_eq hk, Option.pure_def]

end Checked
