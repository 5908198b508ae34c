import BattLock.Can.Codec
import BattLock.Can.Proof.Reassemble
import BattLock.Lib.JsonRoundTrip

/-!
# The certificate codec, there and back

A certificate whose text fields are Unicode strings decodes to itself, from its message and from
the frames the message is split into, in any order they are reassembled. What else decodes to a
certificate is a JSON object with the six members, two of them in base64 (`decodeCertificate_iff`).
-/

namespace BattLock

open Python Transport

namespace Certificate

/-- The text fields are valid Unicode strings. -/
structure IsUnicode (c : Certificate Str) : Prop where
  batteryId : c.batteryId.IsUnicode
  manufacturerId : c.manufacturerId.IsUnicode
  issueDate : c.issueDate.IsUnicode
  expiryDate : c.expiryDate.IsUnicode

/-- The same certificate as the decoder builds it, its text fields found in a JSON text. -/
def decoded (c : Certificate Str) : Certificate Json :=
  ⟨.str c.batteryId, .str c.manufacturerId, c.publicKey, .str c.issueDate, .str c.expiryDate,
    c.signature⟩

end Certificate

variable {c : Certificate Str}

/-- The text of a certificate's object is within the limits of any interpreter. -/
theorem value_certificateJson [Interpreter] (hc : c.IsUnicode) :
    Json.Value Interpreter.maxNesting (certificateJson c).dumps (certificateJson c) := by
  have hkey : ∀ s : String, (Str.ofString s).IsUnicode := fun s => Str.isUnicode_ofChars s.toList
  obtain ⟨n, hn⟩ := Json.exists_maxNesting
  have hstr : ∀ {s : Str}, s.IsUnicode → Json.Value n (Json.str s).dumps (.str s) :=
    Json.value_dumpsStr
  rw [hn]
  refine Json.value_object ?_
  simp only [List.forall_mem_cons]
  exact ⟨⟨hkey _, hstr hc.batteryId⟩, ⟨hkey _, hstr hc.manufacturerId⟩,
    ⟨hkey _, hstr (Str.isUnicode_ofChars _)⟩, ⟨hkey _, hstr hc.issueDate⟩,
    ⟨hkey _, hstr hc.expiryDate⟩, ⟨hkey _, hstr (Str.isUnicode_ofChars _)⟩, by simp⟩

theorem certificateOfJson_certificateJson (c : Certificate Str) :
    certificateOfJson (certificateJson c) = .ok c.decoded := by
  have hbattery : (certificateJson c).getItem "battery_id" = .ok (.str c.batteryId) := rfl
  have hmanufacturer :
      (certificateJson c).getItem "manufacturer_id" = .ok (.str c.manufacturerId) := rfl
  have hkey : (certificateJson c).getItem "public_key" =
      .ok (.str (Str.ofChars (Base64.b64encode c.publicKey))) := rfl
  have hissue : (certificateJson c).getItem "issue_date" = .ok (.str c.issueDate) := rfl
  have hexpiry : (certificateJson c).getItem "expiry_date" = .ok (.str c.expiryDate) := rfl
  have hsignature : (certificateJson c).getItem "signature" =
      .ok (.str (Str.ofChars (Base64.b64encode c.signature))) := rfl
  rw [certificateOfJson, hbattery, hmanufacturer, hkey, hissue, hexpiry, hsignature]
  simp only [ok_bind, b64decodeJson, Base64.b64decode_b64encode, pure_eq_ok]
  rfl

theorem decodeCertificate_ok [Interpreter] (hc : c.IsUnicode) (id : Int) :
    decodeCertificate ⟨id, (encodeCertificate c).data⟩ = .ok c.decoded := by
  have hdata : decodeCertificate ⟨id, (encodeCertificate c).data⟩ =
      decodeCertificate (encodeCertificate c) := rfl
  rw [hdata, decodeCertificate_encodeCertificate, Json.loads_of_value (value_certificateJson hc),
    ok_bind, certificateOfJson_certificateJson]

/-- **A certificate survives its codec and the transport layer**: it is decoded from its message,
and from the frames of the message in any order when it is within the payload limit. -/
theorem certificate_round_trip [Interpreter] (c : Certificate Str) (hc : c.IsUnicode) :
    decodeCertificate (encodeCertificate c) = .ok c.decoded ∧
      ((encodeCertificate c).data.length ≤ 1790 → ∀ id, ∃ frames,
        fragment id (encodeCertificate c).data = .ok frames ∧
          ∀ L : List CANMessage, L.Perm frames → ∃ payload, reassemble L = .ok payload ∧
            decodeCertificate ⟨id, payload⟩ = .ok c.decoded) := by
  refine ⟨decodeCertificate_ok hc _, fun hlen id => ⟨_, fragment_eq id hlen, fun L hL => ?_⟩⟩
  exact ⟨_, reassemble_perm hlen hL, decodeCertificate_ok hc id⟩

/-- Its battery id is a quote, a backslash, a line feed and a character above the basic plane, its
binary fields need padding. -/
def escapedCertificate : Certificate Str :=
  ⟨[0x22, 0x5C, 0x0A, 0x1F512], Str.ofString "", [0xFF], Str.ofString "2026-01-01",
    [0x7F, 0xE9], [0x00, 0x80]⟩

open CPython in
theorem certificate_round_trip_escaped :
    decodeCertificate (encodeCertificate escapedCertificate) = .ok escapedCertificate.decoded ∧
      ∃ frames, fragment 0x102 (encodeCertificate escapedCertificate).data = .ok frames ∧
        (reassemble frames.reverse >>= fun payload => decodeCertificate ⟨0x102, payload⟩) =
          .ok escapedCertificate.decoded := by
  have hbattery : escapedCertificate.batteryId.IsUnicode := by
    simp [Str.IsUnicode, escapedCertificate, Nat.isValidChar]
  have hexpiry : escapedCertificate.expiryDate.IsUnicode := by
    simp [Str.IsUnicode, escapedCertificate, Nat.isValidChar]
  have hc : escapedCertificate.IsUnicode :=
    ⟨hbattery, Str.isUnicode_ofChars _, Str.isUnicode_ofChars _, hexpiry⟩
  obtain ⟨hmessage, hframes⟩ := certificate_round_trip escapedCertificate hc
  obtain ⟨frames, hfragment, hany⟩ := hframes (by decide +kernel) 0x102
  obtain ⟨payload, hpayload, hdecode⟩ := hany _ frames.reverse_perm
  refine ⟨hmessage, frames, hfragment, ?_⟩
  rw [hpayload, ok_bind, hdecode]

/-! ## What decodes -/

/-- The members of an object that a certificate is decoded from. -/
structure Certificate.InMembers (c : Certificate Json) (members : List (Str × Json)) : Prop where
  batteryId : Json.LastMember members "battery_id" c.batteryId
  manufacturerId : Json.LastMember members "manufacturer_id" c.manufacturerId
  publicKey : ∃ s, Json.LastMember members "public_key" (.str s) ∧
    Base64.b64decode s = .ok c.publicKey
  issueDate : Json.LastMember members "issue_date" c.issueDate
  expiryDate : Json.LastMember members "expiry_date" c.expiryDate
  signature : ∃ s, Json.LastMember members "signature" (.str s) ∧
    Base64.b64decode s = .ok c.signature

theorem b64decodeJson_iff {v : Json} {data : Bytes} :
    b64decodeJson v = .ok data ↔ ∃ s, v = .str s ∧ Base64.b64decode s = .ok data := by
  cases v <;> simp [b64decodeJson]

theorem certificateOfJson_iff {data : Json} {c : Certificate Json} :
    certificateOfJson data = .ok c ↔ ∃ members, data = .object members ∧ c.InMembers members := by
  constructor
  · intro h
    obtain ⟨batteryId, hbattery, h⟩ := bind_eq_ok.1 h
    obtain ⟨manufacturerId, hmanufacturer, h⟩ := bind_eq_ok.1 h
    obtain ⟨keyText, hkeyText, h⟩ := bind_eq_ok.1 h
    obtain ⟨publicKey, hkey, h⟩ := bind_eq_ok.1 h
    obtain ⟨issueDate, hissue, h⟩ := bind_eq_ok.1 h
    obtain ⟨expiryDate, hexpiry, h⟩ := bind_eq_ok.1 h
    obtain ⟨signatureText, hsignatureText, h⟩ := bind_eq_ok.1 h
    obtain ⟨signature, hsignature, h⟩ := bind_eq_ok.1 h
    cases h
    obtain ⟨members, rfl, -⟩ := Json.getItem_iff.1 hbattery
    obtain ⟨keyStr, rfl, hkey⟩ := b64decodeJson_iff.1 hkey
    obtain ⟨signatureStr, rfl, hsignature⟩ := b64decodeJson_iff.1 hsignature
    have hlast : ∀ {key : String} {v : Json}, (Json.object members).getItem key = .ok v →
        Json.LastMember members key v := by
      intro key v h
      obtain ⟨members', heq, hlast⟩ := Json.getItem_iff.1 h
      cases heq
      exact hlast
    exact ⟨members, rfl, hlast hbattery, hlast hmanufacturer, ⟨keyStr, hlast hkeyText, hkey⟩,
      hlast hissue, hlast hexpiry, ⟨signatureStr, hlast hsignatureText, hsignature⟩⟩
  · rintro ⟨members, rfl, h⟩
    have hget : ∀ {key : String} {v : Json}, Json.LastMember members key v →
        (Json.object members).getItem key = .ok v := fun h => Json.getItem_iff.2 ⟨members, rfl, h⟩
    obtain ⟨keyStr, hkeyStr, hkey⟩ := h.publicKey
    obtain ⟨signatureStr, hsignatureStr, hsignature⟩ := h.signature
    rw [certificateOfJson, hget h.batteryId, hget h.manufacturerId, hget hkeyStr, hget h.issueDate,
      hget h.expiryDate, hget hsignatureStr]
    simp only [ok_bind, b64decodeJson, hkey, hsignature, pure_eq_ok]

/-- **What decodes to a certificate.** -/
theorem decodeCertificate_iff [Interpreter] {m : CANMessage} {c : Certificate Json} :
    decodeCertificate m = .ok c ↔ ∃ text members, m.data = encodeChars text ∧
      Json.Text text (.object members) ∧ c.InMembers members := by
  simp only [decodeCertificate, bind_eq_ok, decodeChars_iff, Json.loads_iff, certificateOfJson_iff]
  constructor
  · rintro ⟨text, hdata, _, htext, members, rfl, hmembers⟩
    exact ⟨text, members, hdata, htext, hmembers⟩
  · rintro ⟨text, members, hdata, htext, hmembers⟩
    exact ⟨text, hdata, _, htext, members, rfl, hmembers⟩

end BattLock
