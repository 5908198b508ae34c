import BattLock.Crypto.CryptoApi
import BattLock.Lib.Der

/-!
# Raw and DER signatures

The conversions between the two forms undo each other (`der_raw_round_trip`), but the API tells the
forms apart by length: it takes a signature of 64 bytes for raw. The DER encoding of a signature
has 64 bytes itself when the contents of its two integers have 58 together: such a signature is
not converted when it is made and is misread when it is verified. `signNonce_iff`: for all other
pairs of scalars both conversions are right.
-/

namespace BattLock

open Python

/-- The order of the P-256 group. -/
def p256Order : Nat := 0xFFFFFFFF00000000FFFFFFFFFFFFFFFFBCE6FAADA7179E84F3B9CAC2FC632551

/-- R and S, 32 bytes each, big-endian. -/
def rawSignature (r s : Nat) : Bytes := BigEndian.bytes 32 r ++ BigEndian.bytes 32 s

/-- The conversions of the `cryptography` package are those of DER. -/
def Dss.Standard (D : Dss) : Prop :=
  ∀ r s : Nat, r < 2 ^ 256 → s < 2 ^ 256 → D.encodeDssSignature r s = Der.signature r s ∧
    D.decodeDssSignature (Der.signature r s) = .ok ((r : Int), (s : Int))

/-- A scalar: between 1 and the order of the group. -/
def Scalar (v : Nat) : Prop := 1 ≤ v ∧ v < p256Order

instance (v : Nat) : Decidable (Scalar v) := inferInstanceAs (Decidable (_ ∧ _))

theorem Scalar.lt {v : Nat} (h : Scalar v) : v < 2 ^ 256 :=
  Nat.lt_trans h.2 (by decide)

theorem length_rawSignature (r s : Nat) : (rawSignature r s).length = rawSigLen := by
  rw [rawSignature, List.length_append, BigEndian.length_bytes, BigEndian.length_bytes]
  rfl

/-! ## The conversions -/

section
variable {D : Dss} (hD : D.Standard) {r s : Nat} (hr : r < 2 ^ 256) (hs : s < 2 ^ 256)
include hD hr hs

theorem derToRaw_signature : derToRaw D (Der.signature r s) = .ok (rawSignature r s) := by
  have hbytes : ∀ {v : Nat}, v < 2 ^ 256 →
      toBytes v curveScalarLen = .ok (BigEndian.bytes 32 v) := by
    intro v hv
    exact if_pos ⟨Int.natCast_nonneg v, by exact_mod_cast hv⟩
  rw [derToRaw, (hD r s hr hs).2, ok_bind]
  simp only [hbytes hr, hbytes hs, ok_bind, pure_eq_ok]
  rfl

theorem rawToDer_rawSignature : rawToDer D (rawSignature r s) = .ok (Der.signature r s) := by
  have hr' : fromBytes ((rawSignature r s).take curveScalarLen) = r := by
    rw [rawSignature, List.take_left' (show _ = curveScalarLen from BigEndian.length_bytes 32 r),
      fromBytes]
    exact BigEndian.value_bytes_of_lt hr
  have hs' : fromBytes ((rawSignature r s).drop curveScalarLen) = s := by
    rw [rawSignature, List.drop_left' (show _ = curveScalarLen from BigEndian.length_bytes 32 r),
      fromBytes]
    exact BigEndian.value_bytes_of_lt hs
  rw [rawToDer, if_neg (not_not.2 (length_rawSignature r s))]
  simp only [hr', hs', (hD r s hr hs).1]

end

theorem exists_rawSignature {x : Bytes} (hx : x.length = rawSigLen) :
    ∃ r s, r < 2 ^ 256 ∧ s < 2 ^ 256 ∧ x = rawSignature r s := by
  have hr : (x.take 32).length = 32 := by rw [List.length_take, hx]; rfl
  have hs : (x.drop 32).length = 32 := by rw [List.length_drop, hx]; rfl
  refine ⟨BigEndian.value (x.take 32), BigEndian.value (x.drop 32), ?_, ?_, ?_⟩
  · have := BigEndian.value_lt (x.take 32)
    rwa [hr] at this
  · have := BigEndian.value_lt (x.drop 32)
    rwa [hs] at this
  · have hr' := BigEndian.bytes_value (x.take 32)
    have hs' := BigEndian.bytes_value (x.drop 32)
    rw [hr] at hr'
    rw [hs] at hs'
    rw [rawSignature, hr', hs', List.take_append_drop]

/-- The conversions by the DER library. -/
def derDss : Dss where
  encodeDssSignature := Der.signature
  decodeDssSignature data :=
    match Der.decode data with
    | some rs => .ok rs
    | none => .error (.valueError "Could not parse DER")

theorem derDss_standard : derDss.Standard := by
  intro r s hr hs
  refine ⟨rfl, ?_⟩
  rw [derDss]
  simp only [Der.decode_signature hr hs]

/-- **No signature is altered by a conversion and the one back**, and only strings of another length
than 64 are refused. -/
theorem der_raw_round_trip (D : Dss) (hD : D.Standard) :
    (∀ x : Bytes, x.length = rawSigLen →
      ∃ der, rawToDer D x = .ok der ∧ derToRaw D der = .ok x) ∧
    (∀ r s : Nat, r < 2 ^ 256 → s < 2 ^ 256 →
      ∃ raw, derToRaw D (Der.signature r s) = .ok raw ∧
        rawToDer D raw = .ok (Der.signature r s)) ∧
    (∀ x : Bytes, (∃ m, rawToDer D x = .error (.valueError m)) ↔ x.length ≠ rawSigLen) := by
  refine ⟨fun x hx => ?_, fun r s hr hs => ?_, fun x => ?_⟩
  · obtain ⟨r, s, hr, hs, rfl⟩ := exists_rawSignature hx
    exact ⟨_, rawToDer_rawSignature hD hr hs, derToRaw_signature hD hr hs⟩
  · exact ⟨_, derToRaw_signature hD hr hs, rawToDer_rawSignature hD hr hs⟩
  · rw [rawToDer]
    by_cases hx : x.length = rawSigLen
    · simp [hx]
    · simp [hx]

/-- Two signatures of the least and the greatest numbers, there and back. -/
theorem der_raw_round_trip_extremes :
    (∃ der, rawToDer derDss (rawSignature 0 (2 ^ 256 - 1)) = .ok der ∧
        derToRaw derDss der = .ok (rawSignature 0 (2 ^ 256 - 1))) ∧
      ∃ raw, derToRaw derDss (Der.signature (2 ^ 256 - 1) 0) = .ok raw ∧
        rawToDer derDss raw = .ok (Der.signature (2 ^ 256 - 1) 0) :=
  ⟨(der_raw_round_trip derDss derDss_standard).1 _ (length_rawSignature 0 (2 ^ 256 - 1)),
    (der_raw_round_trip derDss derDss_standard).2.1 _ _ (by decide) (by decide)⟩

/-! ## The length -/

theorem signature_ne_rawSignature {r s : Nat} (hr : r < 2 ^ 256) (hs : s < 2 ^ 256)
    (hlen : Der.intLength r + Der.intLength s = 58) : Der.signature r s ≠ rawSignature r s := by
  intro h
  -- the tag 0x30 would be the first byte of R, which then has 32 bytes of content
  have htag : UInt8.ofNat (r / 256 ^ 31) = 0x30 := by
    have := congrArg List.head? h
    simpa [Der.signature, Der.tlv, rawSignature, BigEndian.bytes, eq_comm] using this
  have hdiv : r / 256 ^ 31 = 48 := by
    have hlt : r / 256 ^ 31 < 256 := Nat.div_lt_of_lt_mul hr
    have := congrArg UInt8.toNat htag
    rwa [UInt8.toNat_ofNat_of_lt' hlt] at this
  have hlog : r.log2 = 253 := by
    rw [Nat.log2_eq_iff (by omega)]
    omega
  have hr32 : Der.intLength r = 32 := by
    rw [Der.intLength, hlog]
  have hs26 : Der.intLength s = 26 := by omega
  -- S is short: its raw form starts with zeros where the DER form has the tag of S
  have hzero : BigEndian.bytes 32 s = List.replicate 6 0 ++ BigEndian.bytes 26 s :=
    BigEndian.bytes_add (hs26 ▸ Der.lt_pow_intLength s) 6
  have hraw : (rawSignature r s)[36]? = some 0 := by
    rw [rawSignature, hzero, List.getElem?_append_right (by simp)]
    simp
  have hder : (Der.signature r s)[36]? = some 0x02 := by
    rw [Der.signature, Der.tlv_eq (Der.length_content hr hs).2, Der.integer_eq hr,
      Der.integer_eq hs, hr32]
    simp
  rw [h, hraw] at hder
  cases hder

theorem length_signature_eq {r s : Nat} (hr : r < 2 ^ 256) (hs : s < 2 ^ 256) :
    (Der.signature r s).length = rawSigLen ↔ Der.intLength r + Der.intLength s = 58 := by
  rw [Der.length_signature hr hs, rawSigLen]
  omega

/-! ## The API -/

section
variable {π SK PK : Type} [KeyProvider π PK] (E : Ecdsa SK PK) {D : Dss} (hD : D.Standard)
  {r s : Nat} (hr : r < 2 ^ 256) (hs : s < 2 ^ 256)
include hD hr hs

theorem signNonce_signature {keyManager : KeyManager π} {nonce : Bytes} {entropy : Nat}
    (hsign : keyManager.sign nonce entropy = .ok (Der.signature r s)) :
    CryptoApi.signNonce D keyManager nonce entropy =
      .ok (if Der.intLength r + Der.intLength s = 58 then Der.signature r s
        else rawSignature r s) := by
  rw [CryptoApi.signNonce, hsign, ok_bind]
  by_cases hlen : Der.intLength r + Der.intLength s = 58
  · rw [if_pos ((length_signature_eq hr hs).2 hlen), if_pos hlen, pure_eq_ok]
  · rw [if_neg (mt (length_signature_eq hr hs).1 hlen), if_neg hlen,
      derToRaw_signature hD hr hs]

theorem verifySignature_raw (nonce publicKeyBytes : Bytes) :
    CryptoApi.verifySignature E D nonce (rawSignature r s) publicKeyBytes =
      deserializePublicKey E publicKeyBytes >>= fun publicKey =>
        verifySignature E publicKey nonce (Der.signature r s) := by
  simp only [CryptoApi.verifySignature, length_rawSignature, if_pos, verifySignatureRaw,
    rawToDer_rawSignature hD hr hs]

omit hD in
theorem verifySignature_der (hlen : Der.intLength r + Der.intLength s ≠ 58)
    (nonce publicKeyBytes : Bytes) :
    CryptoApi.verifySignature E D nonce (Der.signature r s) publicKeyBytes =
      deserializePublicKey E publicKeyBytes >>= fun publicKey =>
        verifySignature E publicKey nonce (Der.signature r s) := by
  simp only [CryptoApi.verifySignature, if_neg (mt (length_signature_eq hr hs).1 hlen)]

end

/-- **Signing and verifying are right exactly for the signatures whose DER form does not have 64
bytes**: the integers of `r` and `s` do not have 58 bytes together. -/
theorem signNonce_iff {π SK PK : Type} [KeyProvider π PK] (E : Ecdsa SK PK) (D : Dss)
    (hD : D.Standard) (keyManager : KeyManager π) (nonce : Bytes) (entropy : Nat) (r s : Nat)
    (hr : Scalar r) (hs : Scalar s)
    (hsign : keyManager.sign nonce entropy = .ok (Der.signature r s)) :
    (CryptoApi.signNonce D keyManager nonce entropy = .ok (rawSignature r s) ↔
        Der.intLength r + Der.intLength s ≠ 58) ∧
      ((CryptoApi.signNonce D keyManager nonce entropy = .ok (rawSignature r s) ∧
          (∀ nonce publicKeyBytes : Bytes,
            CryptoApi.verifySignature E D nonce (Der.signature r s) publicKeyBytes =
              CryptoApi.verifySignature E D nonce (rawSignature r s) publicKeyBytes) ∧
          (rawSignature r s).length = rawSigLen ∧ (Der.signature r s).length ≠ rawSigLen) ↔
        Der.intLength r + Der.intLength s ≠ 58) := by
  have hraw : CryptoApi.signNonce D keyManager nonce entropy = .ok (rawSignature r s) ↔
      Der.intLength r + Der.intLength s ≠ 58 := by
    rw [signNonce_signature hD hr.lt hs.lt hsign, Except.ok.injEq]
    by_cases hlen : Der.intLength r + Der.intLength s = 58
    · rw [if_pos hlen]
      exact iff_of_false (signature_ne_rawSignature hr.lt hs.lt hlen) (not_not.2 hlen)
    · rw [if_neg hlen]
      exact iff_of_true rfl hlen
  refine ⟨hraw, fun h => hraw.1 h.1, fun hlen => ⟨hraw.2 hlen, ?_, length_rawSignature r s, ?_⟩⟩
  · intro nonce publicKeyBytes
    rw [verifySignature_raw E hD hr.lt hs.lt, verifySignature_der E hr.lt hs.lt hlen]
  · exact mt (length_signature_eq hr.lt hs.lt).1 hlen

/-! ## Fixed signatures -/

/-- A scheme whose only good signature has the scalars `r` and `s`. -/
def fixedEcdsa (r s : Nat) : Ecdsa UInt8 UInt8 where
  publicKey sk := sk
  sign _ _ _ := Der.signature r s
  verify _ signature _ :=
    if signature = Der.signature r s then .ok () else .error .invalidSignature
  loadPemPublicKey
    | [b] => .ok b
    | _ => .error (.valueError "Unable to load PEM file")
  publicBytes pk := [pk]

/-- Software keys under a fixed signature. -/
def fixedKeys (r s : Nat) : KeyManager (SoftwareProvider (fixedEcdsa r s)) :=
  ⟨⟨SoftwareKeys.init (fixedEcdsa r s) 7⟩⟩

/-- The shortest DER signature is converted. -/
theorem signNonce_shortest :
    CryptoApi.signNonce derDss (fixedKeys 1 1) (List.replicate 32 0) 0 = .ok (rawSignature 1 1) :=
  (signNonce_iff (fixedEcdsa 1 1) derDss derDss_standard (fixedKeys 1 1) (List.replicate 32 0) 0 1 1
    (by decide) (by decide) rfl).1.2 (by decide)

/-- Two scalars of 29 bytes: the DER signature has 64, is given out as it is, and is refused where
its raw form is accepted. -/
theorem signNonce_not_raw :
    derDss.Standard ∧ Scalar (2 ^ 224) ∧
      (fixedKeys (2 ^ 224) (2 ^ 224)).sign (List.replicate 32 0) 0 =
        .ok (Der.signature (2 ^ 224) (2 ^ 224)) ∧
      CryptoApi.signNonce derDss (fixedKeys (2 ^ 224) (2 ^ 224)) (List.replicate 32 0) 0 ≠
        .ok (rawSignature (2 ^ 224) (2 ^ 224)) ∧
      (Der.signature (2 ^ 224) (2 ^ 224)).length = rawSigLen ∧
      CryptoApi.verifySignature (fixedEcdsa (2 ^ 224) (2 ^ 224)) derDss (List.replicate 32 0)
        (Der.signature (2 ^ 224) (2 ^ 224)) [7] = .ok false ∧
      CryptoApi.verifySignature (fixedEcdsa (2 ^ 224) (2 ^ 224)) derDss (List.replicate 32 0)
        (rawSignature (2 ^ 224) (2 ^ 224)) [7] = .ok true := by
  refine ⟨derDss_standard, ?_, rfl, ?_, ?_, ?_, ?_⟩ <;> decide +kernel

end BattLock
