import BattLock.Lib.LittleEndian

/-!
# Big-endian words

Numbers as byte strings of a fixed width, most significant byte first: `bytes n v` is the width-`n`
encoding of `v` (reduced modulo `256 ^ n`), `value` reads a byte string back. They are the
little-endian ones in reverse (`bytes_eq_reverse`, `value_eq_reverse`), which gives the round trips
`value_bytes` and `bytes_value`.
-/

namespace BigEndian

/-- The `n` low-order bytes of `v`, most significant first. -/
def bytes : Nat → Nat → List UInt8
  | 0, _ => []
  | n + 1, v => UInt8.ofNat (v / 256 ^ n) :: bytes n v

/-- The number a byte string denotes, most significant byte first. -/
def value : List UInt8 → Nat
  | [] => 0
  | b :: bs => b.toNat * 256 ^ bs.length + value bs

theorem bytes_eq_reverse : ∀ n v, bytes n v = (LittleEndian.bytes n v).reverse
  | 0, _ => rfl
  | n + 1, v => by
    rw [bytes, bytes_eq_reverse n, LittleEndian.bytes_succ, List.reverse_append,
      List.reverse_singleton, List.singleton_append]

theorem value_eq_reverse : ∀ b, value b = LittleEndian.value b.reverse
  | [] => rfl
  | b :: bs => by
    rw [value, value_eq_reverse bs, List.reverse_cons, LittleEndian.value_concat,
      List.length_reverse, Nat.add_comm]

@[simp] theorem length_bytes (n v : Nat) : (bytes n v).length = n := by
  rw [bytes_eq_reverse, List.length_reverse, LittleEndian.length_bytes]

theorem value_bytes (n v : Nat) : value (bytes n v) = v % 256 ^ n := by
  rw [value_eq_reverse, bytes_eq_reverse, List.reverse_reverse, LittleEndian.value_bytes]

theorem value_bytes_of_lt {n v : Nat} (h : v < 256 ^ n) : value (bytes n v) = v := by
  rw [value_bytes, Nat.mod_eq_of_lt h]

theorem value_lt (b : List UInt8) : value b < 256 ^ b.length := by
  rw [value_eq_reverse, ← List.length_reverse]
  exact LittleEndian.value_lt b.reverse

theorem bytes_value (b : List UInt8) : bytes b.length (value b) = b := by
  rw [bytes_eq_reverse, value_eq_reverse, ← List.length_reverse, LittleEndian.bytes_value,
    List.reverse_reverse]

/-- The leading bytes of a small number are zero. -/
theorem bytes_add {m v : Nat} (h : v < 256 ^ m) :
    ∀ k, bytes (k + m) v = List.replicate k 0 ++ bytes m v
  | 0 => by rw [Nat.zero_add, List.replicate_zero, List.nil_append]
  | k + 1 => by
    have hlt : v < 256 ^ (k + m) :=
      Nat.lt_of_lt_of_le h (Nat.pow_le_pow_right (by decide) (Nat.le_add_left m k))
    rw [Nat.add_right_comm, bytes, Nat.div_eq_of_lt hlt, bytes_add h k, List.replicate_succ]
    rfl

end BigEndian
