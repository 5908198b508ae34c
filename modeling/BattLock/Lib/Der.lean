import BattLock.Lib.BigEndian
import Mathlib.Data.Nat.Log

/-!
# DER signatures

`Der.signature` is the DER encoding of a pair of integers as ECDSA signatures use it: a SEQUENCE of
two INTEGERs, each with the least number of bytes that leaves room for a sign bit (`intLength`).
`length_signature` is the length of a signature of two scalars, `decode_signature` reads it back.
-/

namespace Der

/-! ## Encoding -/

/-- The bytes of a DER integer: one bit more than the number has, for the sign. -/
def intLength (v : Nat) : Nat := (v.log2 + 1) / 8 + 1

/-- The length octets: one below 128, otherwise their number comes first. -/
def lengthBytes (n : Nat) : List UInt8 :=
  if n < 128 then [UInt8.ofNat n]
  else UInt8.ofNat (128 + (n.log2 / 8 + 1)) :: BigEndian.bytes (n.log2 / 8 + 1) n

/-- Tag, length, content. -/
def tlv (tag : UInt8) (content : List UInt8) : List UInt8 :=
  tag :: lengthBytes content.length ++ content

def integer (v : Nat) : List UInt8 := tlv 0x02 (BigEndian.bytes (intLength v) v)

def signature (r s : Nat) : List UInt8 := tlv 0x30 (integer r ++ integer s)

/-! ## Decoding -/

/-- The length at the start of a byte string, and what comes after it. -/
def readLength : List UInt8 → Option (Nat × List UInt8)
  | [] => none
  | b :: bs =>
    if b < 128 then some (b.toNat, bs)
    else
      let k := b.toNat - 128
      some (BigEndian.value (bs.take k), bs.drop k)

/-- The content behind a tag, and what comes after it. -/
def readTlv (tag : UInt8) : List UInt8 → Option (List UInt8 × List UInt8)
  | [] => none
  | b :: bs =>
    if b = tag then do
      let (n, bs) ← readLength bs
      if n ≤ bs.length then some (bs.take n, bs.drop n) else none
    else none

/-- The number in the content of an INTEGER, negative if its first bit is set. -/
def readInt : List UInt8 → Int
  | [] => 0
  | b :: bs =>
    if b < 128 then BigEndian.value (b :: bs)
    else (BigEndian.value (b :: bs) : Int) - 256 ^ (bs.length + 1)

/-- The two integers of a signature, if nothing else is in it. -/
def decode (data : List UInt8) : Option (Int × Int) := do
  let (content, rest) ← readTlv 0x30 data
  let (r, content) ← readTlv 0x02 content
  let (s, content) ← readTlv 0x02 content
  if rest = [] ∧ content = [] then some (readInt r, readInt s) else none

/-! ## Lengths -/

/-- A number fits the bytes of its INTEGER, with the sign bit clear. -/
theorem lt_intLength (v : Nat) : v < 2 ^ (8 * intLength v - 1) := by
  have hle : v.log2 + 1 ≤ 8 * intLength v - 1 := by
    unfold intLength
    omega
  exact Nat.lt_of_lt_of_le Nat.lt_log2_self (Nat.pow_le_pow_right (by decide) hle)

theorem lt_pow_intLength (v : Nat) : v < 256 ^ intLength v := by
  rw [show 256 = 2 ^ 8 by rfl, ← Nat.pow_mul]
  exact Nat.lt_of_lt_of_le (lt_intLength v) (Nat.pow_le_pow_right (by decide) (by omega))

/-- A scalar of 32 bytes takes at most one more. -/
theorem intLength_le {v : Nat} (h : v < 2 ^ 256) : intLength v ≤ 33 := by
  have hlog : v.log2 < 256 := by
    rcases Nat.eq_zero_or_pos v with rfl | hpos
    · decide
    · exact (Nat.log2_lt (Nat.ne_of_gt hpos)).2 h
  unfold intLength
  omega

/-- A short content: the tag, one length octet, the content. -/
theorem tlv_eq {tag : UInt8} {content : List UInt8} (h : content.length < 128) :
    tlv tag content = tag :: UInt8.ofNat content.length :: content := by
  rw [tlv, lengthBytes, if_pos h]
  rfl

theorem length_tlv {tag : UInt8} {content : List UInt8} (h : content.length < 128) :
    (tlv tag content).length = content.length + 2 := by
  rw [tlv_eq h, List.length_cons, List.length_cons]

theorem length_integer {v : Nat} (h : v < 2 ^ 256) : (integer v).length = intLength v + 2 := by
  have hle := intLength_le h
  rw [integer, length_tlv (by rw [BigEndian.length_bytes]; omega), BigEndian.length_bytes]

/-- The content of a signature has a length of one octet. -/
theorem length_content {r s : Nat} (hr : r < 2 ^ 256) (hs : s < 2 ^ 256) :
    (integer r ++ integer s).length = intLength r + intLength s + 4 ∧
      (integer r ++ integer s).length < 128 := by
  have hr' := intLength_le hr
  have hs' := intLength_le hs
  rw [List.length_append, length_integer hr, length_integer hs]
  omega

/-- **The length of a signature.** -/
theorem length_signature {r s : Nat} (hr : r < 2 ^ 256) (hs : s < 2 ^ 256) :
    (signature r s).length = intLength r + intLength s + 6 := by
  obtain ⟨hlen, hlt⟩ := length_content hr hs
  rw [signature, length_tlv hlt, hlen]

theorem integer_eq {v : Nat} (h : v < 2 ^ 256) :
    integer v = 0x02 :: UInt8.ofNat (intLength v) :: BigEndian.bytes (intLength v) v := by
  have hle := intLength_le h
  rw [integer, tlv_eq (by rw [BigEndian.length_bytes]; omega), BigEndian.length_bytes]

/-! ## The round trip -/

theorem readTlv_tlv (tag : UInt8) {content : List UInt8} (rest : List UInt8)
    (h : content.length < 128) : readTlv tag (tlv tag content ++ rest) = some (content, rest) := by
  have hbyte : (UInt8.ofNat content.length).toNat = content.length :=
    UInt8.toNat_ofNat_of_lt' (by rw [UInt8.size]; omega)
  have hlt : UInt8.ofNat content.length < 128 := by
    rw [UInt8.lt_iff_toNat_lt, hbyte]
    exact h
  rw [tlv_eq h]
  simp [readTlv, readLength, hlt, hbyte]

theorem readInt_bytes (v : Nat) : readInt (BigEndian.bytes (intLength v) v) = v := by
  have hv := lt_intLength v
  have hvalue := BigEndian.value_bytes_of_lt (lt_pow_intLength v)
  obtain ⟨k, hk⟩ : ∃ k, intLength v = k + 1 := ⟨_, rfl⟩
  rw [hk] at hv hvalue ⊢
  -- the first byte is below 128: the sign bit is clear
  have hfirst : v / 256 ^ k < 128 := by
    rw [Nat.div_lt_iff_lt_mul (Nat.pow_pos (by decide)), show 256 = 2 ^ 8 by rfl, ← Nat.pow_mul,
      show 128 = 2 ^ 7 by rfl, ← Nat.pow_add]
    exact Nat.lt_of_lt_of_le hv (Nat.pow_le_pow_right (by decide) (by omega))
  have hbyte : UInt8.ofNat (v / 256 ^ k) < 128 := by
    rw [UInt8.lt_iff_toNat_lt, UInt8.toNat_ofNat_of_lt' (by rw [UInt8.size]; omega)]
    exact hfirst
  rw [BigEndian.bytes] at hvalue ⊢
  rw [readInt, if_pos hbyte, hvalue]

/-- **Decoding a signature.** -/
theorem decode_signature {r s : Nat} (hr : r < 2 ^ 256) (hs : s < 2 ^ 256) :
    decode (signature r s) = some ((r : Int), (s : Int)) := by
  have hsig := readTlv_tlv 0x30 [] (length_content hr hs).2
  have hint : ∀ {v : Nat}, v < 2 ^ 256 → ∀ rest, readTlv 0x02 (integer v ++ rest) =
      some (BigEndian.bytes (intLength v) v, rest) := by
    intro v hv rest
    have := intLength_le hv
    exact readTlv_tlv 0x02 rest (by rw [BigEndian.length_bytes]; omega)
  have hs0 := hint hs []
  rw [List.append_nil] at hsig hs0
  simp only [decode, signature, hsig, hint hr, hs0, Option.bind_eq_bind, Option.bind_some,
    and_self, ↓reduceIte, readInt_bytes]

end Der
