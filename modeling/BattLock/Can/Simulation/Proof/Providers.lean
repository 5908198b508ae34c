import BattLock.Can.Simulation.BatteryNode
import BattLock.Can.Simulation.VehicleNode
import BattLock.Crypto.Atecc608
import BattLock.Crypto.Proof.Binding
import BattLock.Crypto.Proof.RawSignature

/-!
# Key providers in the handshake

A challenge has more than 32 bytes, since the decimal timestamp follows the nonce
(`length_challengeBytes`), and the chip signs 32 bytes only. So a battery answers the challenge
with software keys and raises with hardware keys (`challenge_accepted_iff`).
-/

namespace BattLock

open Python

namespace VehicleNode

theorem length_challengeBytes (nonce : Bytes) (timestamp : Int) :
    nonce.length < (challengeBytes nonce (some timestamp)).length := by
  obtain ⟨c, cs, h⟩ := List.exists_cons_of_ne_nil (strInt_ne_nil timestamp)
  have hpos : 0 < (String.utf8EncodeChar c).length := by
    rw [String.length_utf8EncodeChar]
    exact c.utf8Size_pos
  rw [challengeBytes, h, List.length_append, encodeChars, List.flatMap_cons, List.length_append]
  omega

end VehicleNode

/-! ## One challenge -/

/-- The vehicle sends a challenge, and the battery answers it. -/
def respond {π PK : Type} [KeyProvider π PK] (battery : BatteryNode π) (vehicle : VehicleNode PK)
    (challenge : Challenge) (entropy : Nat) : Except Err CANMessage :=
  let (_, message) := vehicle.sendNonce challenge.nonce (some challenge.timestamp)
  let (battery, _) := battery.receiveNonce message
  battery.signAndRespond entropy

/-- The battery signs nonce and timestamp, as the vehicle has put them together. -/
theorem respond_eq {π PK : Type} [KeyProvider π PK] (battery : BatteryNode π)
    (vehicle : VehicleNode PK) (challenge : Challenge) (entropy : Nat) :
    respond battery vehicle challenge entropy =
      battery.battery.sign
          (VehicleNode.challengeBytes challenge.nonce (some challenge.timestamp)) entropy >>=
        fun signature => .ok (encodeSignature signature) := rfl

section
variable {SK PK : Type} {E : Ecdsa SK PK} {fromEncodedPoint : Bytes → Except Err PK}
  {chip : ATECC608 fromEncodedPoint} {privateKey : SK}
  {battery : BatteryNode (Provider E fromEncodedPoint)}

theorem respond_software (hkeys : battery.battery.keys = KeyManager.init false chip privateKey)
    (vehicle : VehicleNode PK) (challenge : Challenge) (entropy : Nat) :
    respond battery vehicle challenge entropy =
      .ok (encodeSignature (E.sign privateKey
        (VehicleNode.challengeBytes challenge.nonce (some challenge.timestamp)) entropy)) := by
  rw [respond_eq, Battery.sign, hkeys]
  rfl

theorem respond_hardware (hkeys : battery.battery.keys = KeyManager.init true chip privateKey)
    (vehicle : VehicleNode PK) (challenge : Challenge) (entropy : Nat) :
    respond battery vehicle challenge entropy = .error (if chip.connected
      then .valueError "ATECC608.sign: message must be 32 bytes"
      else .runtimeError "ATECC608: call connect() first") := by
  have hlen := VehicleNode.length_challengeBytes challenge.nonce challenge.timestamp
  rw [challenge.length_nonce] at hlen
  have hsign : ∀ data, battery.battery.sign data entropy = chip.sign data entropy := by
    intro data
    rw [Battery.sign, hkeys]
    rfl
  rw [respond_eq, hsign, chip.sign_of_length_ne (Nat.ne_of_gt hlen), error_bind]

end

/-- **Which provider answers a challenge**: with the provider's key in the stored certificate, the
battery answers with a signature that the vehicle accepts exactly if it signs with software
keys. -/
theorem challenge_accepted_iff {SK PK : Type} (E : Ecdsa SK PK)
    (fromEncodedPoint : Bytes → Except Err PK)
    (hverify : ∀ sk data entropy,
      E.verify (E.publicKey sk) (E.sign sk data entropy) data = .ok ())
    (hload : ∀ publicKey, E.loadPemPublicKey (E.publicBytes publicKey) = .ok publicKey)
    (useHardware : Bool) (chip : ATECC608 fromEncodedPoint) (privateKey : SK)
    (battery : BatteryNode (Provider E fromEncodedPoint))
    (hkeys : battery.battery.keys = KeyManager.init useHardware chip privateKey)
    (vehicle : VehicleNode PK) (certificate : Certificate Json) (publicKey : PK)
    (hstored : vehicle.storedCertificate = some certificate)
    (hpublic : battery.battery.getPublicKey = .ok publicKey)
    (hcert : certificate.publicKey = serializePublicKey E publicKey)
    (challenge : Challenge) (entropy : Nat) :
    (∃ response, respond battery vehicle challenge entropy = .ok response ∧
        response.arbitrationId = CanId.signature ∧
        (vehicle.sendNonce challenge.nonce (some challenge.timestamp)).1.receiveAndVerifySignature E
          response = .ok true) ↔ useHardware = false := by
  cases useHardware with
  | true =>
    refine iff_of_false ?_ Bool.noConfusion
    intro h
    obtain ⟨response, hresponse, -⟩ := h
    rw [respond_hardware hkeys vehicle challenge entropy] at hresponse
    cases hresponse
  | false =>
    refine iff_of_true ⟨_, respond_software hkeys vehicle challenge entropy, rfl, ?_⟩ rfl
    have hkey : publicKey = E.publicKey privateKey := by
      rw [Battery.getPublicKey, hkeys] at hpublic
      cases hpublic
      rfl
    have hdecode : deserializePublicKey E certificate.publicKey = .ok publicKey := by
      rw [hcert]
      exact hload publicKey
    simp only [VehicleNode.sendNonce, VehicleNode.receiveAndVerifySignature, hstored, hdecode,
      ok_bind, decodeSignature, encodeSignature, hkey]
    exact (verifySignature_eq_true E).2 (hverify privateKey _ entropy)

/-! ## A chip -/

/-- A connected chip that signs with the scalars 1 and 1. -/
def plainChip : ATECC608 fun _ => Except.ok (7 : UInt8) where
  connected := true
  query line _ :=
    if "SIGN ".toList.isPrefixOf line then .ok ("SIG:".toList ++ hex (rawSignature 1 1))
    else if line = "PUBKEY".toList then .ok ("PUB:".toList ++ hex (List.replicate 64 0))
    else .ok "ERR:unknown command".toList

/-- A battery with one of the providers. -/
def providerBattery (E : Ecdsa UInt8 UInt8) (useHardware : Bool) :
    BatteryNode (Provider E fun _ => Except.ok (7 : UInt8)) where
  battery := {
    identity := ⟨Str.ofString "BAT001", Str.ofString "SN001", Str.ofString "TESLA"⟩
    keys := KeyManager.init useHardware plainChip 7 }

/-- A vehicle that has stored a certificate with key 7. -/
def providerVehicle : VehicleNode UInt8 where
  storedCertificate := some {
    batteryId := .str (Str.ofString "BAT001")
    manufacturerId := .str (Str.ofString "TESLA")
    publicKey := [7]
    issueDate := .str (Str.ofString "2026-01-01")
    expiryDate := .str (Str.ofString "2031-01-01")
    signature := [] }

def zeroChallenge : Challenge := ⟨List.replicate 32 0, 1780000000, rfl⟩

/-- Software keys are accepted. -/
theorem challenge_accepted_software :
    ∃ response, respond (providerBattery plainEcdsa false) providerVehicle zeroChallenge 0 =
        .ok response ∧ response.arbitrationId = CanId.signature ∧
      (providerVehicle.sendNonce zeroChallenge.nonce
        (some zeroChallenge.timestamp)).1.receiveAndVerifySignature plainEcdsa response =
          .ok true :=
  (challenge_accepted_iff plainEcdsa _
    (fun sk data entropy => (plainEcdsa_ideal sk data entropy data).trans (if_pos rfl))
    (fun _ => rfl) false plainChip 7 (providerBattery plainEcdsa false) rfl providerVehicle _ 7 rfl
    rfl rfl zeroChallenge 0).2 rfl

/-- The chip signs 32 bytes, with a signature that is valid under the certificate's key, and
raises on the challenge. -/
theorem challenge_not_signed :
    (∀ data entropy, data.length = 32 → plainChip.sign data entropy = .ok (rawSignature 1 1)) ∧
      (∀ data, verifySignatureRaw (fixedEcdsa 1 1) derDss 7 data (rawSignature 1 1) = .ok true) ∧
      (providerBattery (fixedEcdsa 1 1) true).battery.getPublicKey = .ok 7 ∧
      providerVehicle.storedCertificate.map Certificate.publicKey =
        some (serializePublicKey (fixedEcdsa 1 1) 7) ∧
      respond (providerBattery (fixedEcdsa 1 1) true) providerVehicle zeroChallenge 0 =
        .error (.valueError "ATECC608.sign: message must be 32 bytes") := by
  refine ⟨?_, ?_, by decide +kernel, rfl, by decide +kernel⟩
  · intro data entropy hdata
    exact plainChip.sign_of_query rfl hdata (length_rawSignature 1 1) rfl
  · intro data
    rw [verifySignatureRaw, rawToDer_rawSignature derDss_standard (by decide) (by decide)]
    rfl

end BattLock
