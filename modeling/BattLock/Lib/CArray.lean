import Mathlib.Data.List.GetD

/-!
# Byte arrays of C

`Vector UInt8 n` is an array of `n` bytes. `copyBytes` is the loop that copies `k` bytes between
two arrays, byte by byte, `zeroExtend` the array that starts with the bytes of a list, `sub` the
array at an offset of a larger one. A copy is described by the bytes of its destination:
`toList_copyBytes` for the whole array, `take_copyBytes` for the part up to the end of the copy.

Indices are not checked when a copy runs: what is read outside the source is 0, what is written
outside the destination is lost, and the lemmas ask for the bounds.
-/

namespace CArray

variable {n m : Nat}

/-- `for (j = 0; j < k; j++) dst[start + j] = src[off + j];` -/
def copyBytes (dst : Vector UInt8 n) (start : Nat) (src : Vector UInt8 m) (off : Nat) :
    Nat → Vector UInt8 n
  | 0 => dst
  | j + 1 =>
    (copyBytes dst start src off j).setIfInBounds (start + j) (src.toList.getD (off + j) 0)

/-- The first `n` bytes of a list, zero-extended. -/
def zeroExtend (n : Nat) (l : List UInt8) : Vector UInt8 n := Vector.ofFn fun i => l.getD i 0

/-- The `m` bytes from an offset on. -/
def sub (v : Vector UInt8 n) (off m : Nat) : Vector UInt8 m :=
  Vector.ofFn fun i => v.toList.getD (off + i) 0

/-! ## Copies -/

/-- One byte written behind a prefix. -/
theorem set_take_append {l p : List UInt8} {i : Nat} {b : UInt8} (hp : p.length = i)
    (hi : i < l.length) : (p ++ l.drop i).set i b = p ++ [b] ++ l.drop (i + 1) := by
  subst hp
  rw [List.set_append_right _ _ (Nat.le_refl _), Nat.sub_self, List.drop_eq_getElem_cons hi,
    List.set_cons_zero, List.append_assoc, List.singleton_append]

theorem toList_copyBytes {dst : Vector UInt8 n} {src : Vector UInt8 m} {start off k : Nat}
    (hdst : start + k ≤ n) (hsrc : off + k ≤ m) :
    (copyBytes dst start src off k).toList =
      dst.toList.take start ++ (src.toList.drop off).take k ++ dst.toList.drop (start + k) := by
  induction k with
  | zero => simp [copyBytes]
  | succ k ih =>
    have hlen : (dst.toList.take start ++ (src.toList.drop off).take k).length = start + k := by
      simp only [List.length_append, List.length_take, List.length_drop, Vector.length_toList]
      omega
    have hk : k < (src.toList.drop off).length := by simp; omega
    have hget : src.toList.getD (off + k) 0 = (src.toList.drop off)[k] := by
      rw [List.getD_eq_getElem _ _ (by simp; omega), List.getElem_drop]
    rw [copyBytes, Vector.toList_setIfInBounds, ih (by omega) (by omega),
      set_take_append hlen (by simp; omega), List.take_add_one, List.getElem?_eq_getElem hk, hget,
      Option.toList_some]
    simp only [List.append_assoc, Nat.add_assoc]

/-- The destination up to the end of the copy. -/
theorem take_copyBytes {dst : Vector UInt8 n} {src : Vector UInt8 m} {start off k : Nat}
    (hdst : start + k ≤ n) (hsrc : off + k ≤ m) :
    (copyBytes dst start src off k).toList.take (start + k) =
      dst.toList.take start ++ (src.toList.drop off).take k := by
  have hlen : (dst.toList.take start ++ (src.toList.drop off).take k).length = start + k := by
    simp only [List.length_append, List.length_take, List.length_drop, Vector.length_toList]
    omega
  rw [toList_copyBytes hdst hsrc, List.take_append_of_le_length (Nat.le_of_eq hlen.symm),
    List.take_of_length_le (Nat.le_of_eq hlen)]

/-- A copy writes nothing behind the destination. -/
theorem copyBytes_of_le {dst : Vector UInt8 n} {src : Vector UInt8 m} {start off k : Nat}
    (h : n ≤ start + k) (j : Nat) :
    copyBytes dst start src off (k + j) = copyBytes dst start src off k := by
  induction j with
  | zero => rfl
  | succ j ih =>
    rw [← Nat.add_assoc, copyBytes, ih]
    exact Vector.setIfInBounds_eq_of_size_le (by omega)

/-! ## Arrays from bytes -/

theorem get_zeroExtend (l : List UInt8) (i : Fin n) : (zeroExtend n l).get i = l.getD i 0 := by
  show (zeroExtend n l)[i.val] = l.getD i 0
  simp [zeroExtend]

theorem toList_zeroExtend {l : List UInt8} (h : l.length ≤ n) :
    (zeroExtend n l).toList = l ++ List.replicate (n - l.length) 0 := by
  apply List.ext_getElem
  · simp only [Vector.length_toList, List.length_append, List.length_replicate]
    omega
  · intro i h1 h2
    simp only [zeroExtend, Vector.toList_ofFn, List.getElem_ofFn]
    by_cases hi : i < l.length
    · rw [List.getD_eq_getElem _ _ hi, List.getElem_append_left hi]
    · rw [List.getD_eq_default _ _ (by omega), List.getElem_append_right (by omega),
        List.getElem_replicate]

theorem toList_sub {v : Vector UInt8 n} {off m : Nat} (h : off + m ≤ n) :
    (sub v off m).toList = (v.toList.drop off).take m := by
  apply List.ext_getElem
  · simp only [Vector.length_toList, List.length_take, List.length_drop]
    omega
  · intro i h1 h2
    have hi : i < m := by simpa using h1
    simp only [sub, Vector.toList_ofFn, List.getElem_ofFn, List.getElem_take, List.getElem_drop]
    exact List.getD_eq_getElem _ _ (by simp; omega)

theorem getElem_sub (v : Vector UInt8 n) (off : Nat) {i : Nat} (hi : i < m) :
    (sub v off m)[i] = v.toList.getD (off + i) 0 := by
  simp [sub]

/-- The part of a concatenation that starts at the offset. -/
theorem sub_of_append {v : Vector UInt8 n} {part : Vector UInt8 m} {a b : List UInt8} {off : Nat}
    (h : v.toList = a ++ (part.toList ++ b)) (hoff : a.length = off) : sub v off m = part := by
  have hlen := congrArg List.length h
  simp only [List.length_append, Vector.length_toList] at hlen
  rw [← Vector.toList_inj, toList_sub (by omega), h, ← hoff, List.drop_left,
    List.take_left' Vector.length_toList]

/-- The start of the start. -/
theorem sub_prefix (v : Vector UInt8 n) {k : Nat} (h : k ≤ m) :
    sub (sub v 0 m) 0 k = sub v 0 k := by
  apply Vector.ext
  intro i hi
  have hm : 0 + i < m := by omega
  rw [getElem_sub, getElem_sub, List.getD_eq_getElem _ _ (by simpa using hm), Vector.getElem_toList,
    getElem_sub, Nat.zero_add]

/-- A part of the first of two arrays. -/
theorem sub_append_left (v : Vector UInt8 n) (w : Vector UInt8 m) {off k : Nat}
    (h : off + k ≤ n) : sub (v ++ w) off k = sub v off k := by
  apply Vector.ext
  intro i hi
  have hn : off + i < v.toList.length := by rw [Vector.length_toList]; omega
  rw [getElem_sub, getElem_sub, Vector.toList_append, List.getD_append _ _ _ _ hn]

/-- A copy over the whole of its destination. -/
theorem copyBytes_all {dst : Vector UInt8 n} {src : Vector UInt8 m} (h : n ≤ m) :
    copyBytes dst 0 src 0 n = sub src 0 n := by
  have hrest : dst.toList.drop (0 + n) = [] := List.drop_eq_nil_of_le (by simp)
  rw [← Vector.toList_inj, toList_copyBytes (by omega) (by omega), toList_sub (by omega), hrest,
    List.take_zero, List.nil_append, List.append_nil]

end CArray
