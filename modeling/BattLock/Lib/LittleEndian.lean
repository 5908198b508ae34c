import Mathlib.Data.Nat.Basic
import Mathlib.Tactic.Ring

/-!
# Little-endian words

Numbers as byte strings of a fixed width, least significant byte first: `bytes n v` is the
width-`n` encoding of `v` (reduced modulo `256 ^ n`), `value` reads a byte string back.
`value_bytes` and `bytes_value` are the round trips.
-/

namespace LittleEndian

/-- The `n` low-order bytes of `v`, least significant first. -/
def bytes : Nat → Nat → List UInt8
  | 0, _ => []
  | n + 1, v => UInt8.ofNat v :: bytes n (v / 256)

/-- The number a byte string denotes, least significant byte first. -/
def value : List UInt8 → Nat
  | [] => 0
  | b :: bs => b.toNat + 256 * value bs

@[simp] theorem length_bytes : ∀ n v, (bytes n v).length = n
  | 0, _ => rfl
  | n + 1, v => by rw [bytes, List.length_cons, length_bytes n]

theorem value_bytes : ∀ n v, value (bytes n v) = v % 256 ^ n
  | 0, v => by simp [bytes, value, Nat.mod_one]
  | n + 1, v => by
    rw [bytes, value, value_bytes n, UInt8.toNat_ofNat', Nat.pow_succ 256 n,
      Nat.mul_comm (256 ^ n), Nat.mod_mul]

theorem value_bytes_of_lt {n v : Nat} (h : v < 256 ^ n) : value (bytes n v) = v := by
  rw [value_bytes, Nat.mod_eq_of_lt h]

theorem bytes_value : ∀ b, bytes b.length (value b) = b
  | [] => rfl
  | b :: bs => by
    have hb := b.toNat_lt
    have hhead : UInt8.ofNat (b.toNat + 256 * value bs) = b := by
      rw [← UInt8.toNat_inj, UInt8.toNat_ofNat']
      omega
    have htail : (b.toNat + 256 * value bs) / 256 = value bs := by omega
    rw [List.length_cons, bytes, value, hhead, htail, bytes_value bs]

theorem value_lt : ∀ b, value b < 256 ^ b.length
  | [] => Nat.one_pos
  | b :: bs => by
    have hb := b.toNat_lt
    have := value_lt bs
    rw [value, List.length_cons, Nat.pow_succ]
    omega

/-- The most significant byte comes last. -/
theorem bytes_succ (n : Nat) :
    ∀ v, bytes (n + 1) v = bytes n v ++ [UInt8.ofNat (v / 256 ^ n)] := by
  induction n with
  | zero => exact fun v => by rw [Nat.pow_zero, Nat.div_one]; rfl
  | succ n ih =>
    intro v
    rw [bytes, ih, bytes, Nat.div_div_eq_div_mul, ← Nat.pow_succ', List.cons_append]

theorem value_concat (bs : List UInt8) (b : UInt8) :
    value (bs ++ [b]) = value bs + b.toNat * 256 ^ bs.length := by
  induction bs with
  | nil => simp [value]
  | cons c bs ih =>
    rw [List.cons_append, value, ih, value, List.length_cons, Nat.pow_succ]
    ring

/-- Two bytes put together by `|` and `<<`. -/
theorem or_shiftLeft (a b : UInt8) : a.toNat ||| b.toNat <<< 8 = value [a, b] := by
  have ha : a.toNat < 2 ^ 8 := a.toNat_lt
  rw [Nat.or_comm, ← Nat.shiftLeft_add_eq_or_of_lt ha, Nat.shiftLeft_eq]
  simp only [value]
  omega

/-- Two bytes put together as C does it. -/
theorem toNat_word (a b : UInt8) :
    (a.toUInt16 ||| (b.toUInt16 <<< 8)).toNat = value [a, b] := by
  have ha := a.toNat_lt
  have hb := b.toNat_lt
  have h8 : (8 : UInt16).toNat % 16 = 8 := rfl
  simp only [UInt16.toNat_or, UInt16.toNat_shiftLeft, UInt8.toNat_toUInt16, value]
  rw [h8, Nat.shiftLeft_eq, Nat.mod_eq_of_lt (by omega), ← Nat.shiftLeft_eq, Nat.or_comm,
    ← Nat.shiftLeft_add_eq_or_of_lt (by omega : a.toNat < 2 ^ 8), Nat.shiftLeft_eq]
  omega

/-- Four bytes put together as C does it. -/
theorem toNat_word32 (a b c d : UInt8) :
    (a.toUInt32 ||| (b.toUInt32 <<< 8) ||| (c.toUInt32 <<< 16) ||| (d.toUInt32 <<< 24)).toNat =
      value [a, b, c, d] := by
  have ha := a.toNat_lt
  have hb := b.toNat_lt
  have hc := c.toNat_lt
  have hd := d.toNat_lt
  have h8 : (8 : UInt32).toNat % 32 = 8 := rfl
  have h16 : (16 : UInt32).toNat % 32 = 16 := rfl
  have h24 : (24 : UInt32).toNat % 32 = 24 := rfl
  -- the parts do not overlap: `|` is a sum, from the low byte up
  have hor : ∀ {x y k : Nat}, x < 2 ^ k → x ||| y <<< k = x + y * 2 ^ k := by
    intro x y k hx
    rw [Nat.or_comm, ← Nat.shiftLeft_add_eq_or_of_lt hx, Nat.shiftLeft_eq, Nat.add_comm]
  simp only [UInt32.toNat_or, UInt32.toNat_shiftLeft, UInt8.toNat_toUInt32, h8, h16, h24]
  rw [Nat.mod_eq_of_lt (by rw [Nat.shiftLeft_eq]; omega),
    Nat.mod_eq_of_lt (by rw [Nat.shiftLeft_eq]; omega),
    Nat.mod_eq_of_lt (by rw [Nat.shiftLeft_eq]; omega), hor (k := 8) (by omega),
    hor (k := 16) (by omega), hor (k := 24) (by omega)]
  simp only [value]
  omega

/-- The four bytes of a word as C takes them. -/
theorem value_bytes32 (c : UInt32) :
    value [(c &&& 0xFF).toUInt8, ((c >>> 8) &&& 0xFF).toUInt8, ((c >>> 16) &&& 0xFF).toUInt8,
      ((c >>> 24) &&& 0xFF).toUInt8] = c.toNat := by
  have hc := c.toNat_lt
  have h255 : (0xFF : UInt32).toNat = 2 ^ 8 - 1 := rfl
  have h8 : (8 : UInt32).toNat % 32 = 8 := rfl
  have h16 : (16 : UInt32).toNat % 32 = 16 := rfl
  have h24 : (24 : UInt32).toNat % 32 = 24 := rfl
  simp only [value, UInt32.toNat_toUInt8, UInt32.toNat_and, UInt32.toNat_shiftRight, h255, h8, h16,
    h24, Nat.and_two_pow_sub_one_eq_mod, Nat.shiftRight_eq_div_pow]
  omega

end LittleEndian
