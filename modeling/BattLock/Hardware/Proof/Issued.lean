import BattLock.Crypto.Certificate
import BattLock.Crypto.Proof.Binding
import BattLock.Hardware.Vehicle
import BattLock.Lib.Pem

/-!
# Certificates issued by the software

`verify_certificate` of the vehicle is meant to hash the byte string `create_certificate` signed.
It hashes 85 bytes for every packed certificate; what is signed holds the dates as text and, as the
provisioning tool passes it, the public key in PEM. So the two differ for every certificate
(`not_hashesSigned`).
-/

namespace BattLock.Hardware

open Python

variable {SK PK : Type} {E : Ecdsa SK PK}

/-- The vehicle hashes, for a packed certificate, the bytes an issued one is signed over. -/
def HashesSigned (certificate : Certificate Str) (packed : BattLockCert) : Prop :=
  certificateData certificate = .ok (certificateMessage packed).toList

theorem length_certificateData {certificate : Certificate Str} {data : Bytes}
    (h : certificateData certificate = .ok data)
    (hbattery : certificate.batteryId.isAscii)
    (hmanufacturer : certificate.manufacturerId.isAscii)
    (hissue : certificate.issueDate.isAscii)
    (hexpiry : certificate.expiryDate.isAscii) :
    data.length = certificate.batteryId.length + certificate.manufacturerId.length +
      certificate.publicKey.length + certificate.issueDate.length +
        certificate.expiryDate.length := by
  simp only [certificateData, PyText.encode, bind_eq_ok, pure_eq_ok, Except.ok.injEq] at h
  obtain ⟨b, hb, m, hm, i, hi, e, he, rfl⟩ := h
  simp only [List.length_append, Str.length_encode hbattery hb, Str.length_encode hmanufacturer hm,
    Str.length_encode hissue hi, Str.length_encode hexpiry he]

/-- **No issued certificate can verify on the vehicle**: whatever packed certificate is made of it,
the vehicle hashes other bytes than the ones that were signed; with the key in PEM, and also with
the bare point. -/
theorem not_hashesSigned (E : Ecdsa SK PK) (rootCa : RootCA SK PK)
    {batteryId manufacturerId : Str} (hbatteryLen : batteryId.length = 6)
    (hbattery : batteryId.isAscii) (hmanufacturerLen : manufacturerId.length = 8)
    (hmanufacturer : manufacturerId.isAscii) {point : Vector UInt8 65} {key : Bytes}
    (hkey : key = Pem.p256PublicKey point ∨ key = point.toList) {issue expiry : Datetime}
    {entropy : Nat} {certificate : Certificate Str}
    (hissued : createCertificate E rootCa batteryId manufacturerId key issue.strftime
      expiry.strftime entropy = .ok certificate) (packed : BattLockCert) :
    ¬ HashesSigned certificate packed := by
  intro h
  simp only [createCertificate, bind_eq_ok, pure_eq_ok, Except.ok.injEq] at hissued
  obtain ⟨data, -, rfl⟩ := hissued
  have hlength := length_certificateData h hbattery hmanufacturer issue.isAscii_strftime
    expiry.isAscii_strftime
  have hkeyLen : key.length = 178 ∨ key.length = 65 := by
    rcases hkey with rfl | rfl
    · exact .inl (Pem.length_p256PublicKey point)
    · exact .inr Vector.length_toList
  simp only [Vector.length_toList, hbatteryLen, hmanufacturerLen, Datetime.length_strftime]
    at hlength
  omega

/-! ## A certificate of the provisioning tool -/

/-- A point on P-256. -/
def issuedPoint : Vector UInt8 65 :=
  #v[4, 38, 74, 120, 253, 252, 37, 215, 116, 191, 127, 39, 80, 0, 186, 120, 57, 149, 163, 148, 46,
    34, 166, 92, 194, 101, 232, 251, 111, 107, 33, 222, 125, 36, 38, 114, 243, 196, 63, 101, 140,
    187, 83, 63, 100, 82, 192, 117, 244, 48, 245, 43, 89, 45, 96, 47, 237, 249, 24, 209, 138, 240,
    170, 86, 211]

def issueDay : Datetime := ⟨2026, 6, 1, 0⟩
def expiryDay : Datetime := ⟨2031, 5, 31, 0⟩

/-- Issued under key 7 of the toy scheme. -/
def issuedCertificate : Certificate Str where
  batteryId := Str.ofString "BAT001"
  manufacturerId := Str.ofString "BATTLOCK"
  publicKey := Pem.p256PublicKey issuedPoint
  issueDate := issueDay.strftime
  expiryDate := expiryDay.strftime
  signature := 7 :: (encodeChars "BAT001BATTLOCK".toList ++ Pem.p256PublicKey issuedPoint ++
    encodeChars "2026-06-012031-05-31".toList)

/-- The same identity, key and dates in the firmware's struct. -/
def issuedPacked : BattLockCert where
  batteryId := #v[0x42, 0x41, 0x54, 0x30, 0x30, 0x31, 0]
  manufacturerId := #v[0x42, 0x41, 0x54, 0x54, 0x4C, 0x4F, 0x43, 0x4B]
  issueYear := 26
  issueMonth := 6
  issueDay := 1
  expiryYear := 31
  expiryMonth := 5
  expiryDay := 31
  publicKey := issuedPoint
  signature := Vector.replicate 64 0

theorem not_hashesSigned_packed : ¬ HashesSigned issuedCertificate issuedPacked := by
  have hissued : createCertificate plainEcdsa (RootCA.init plainEcdsa 7) (Str.ofString "BAT001")
      (Str.ofString "BATTLOCK") (Pem.p256PublicKey issuedPoint) issueDay.strftime
      expiryDay.strftime 0 = .ok issuedCertificate := by decide +kernel
  exact not_hashesSigned plainEcdsa (RootCA.init plainEcdsa 7) (by decide +kernel)
    (by decide +kernel) (by decide +kernel) (by decide +kernel) (.inl rfl) hissued issuedPacked

/-- 212 bytes were signed, 85 are hashed. -/
theorem issued_not_hashed :
    createCertificate plainEcdsa (RootCA.init plainEcdsa 7) issuedCertificate.batteryId
        issuedCertificate.manufacturerId (Pem.p256PublicKey issuedPoint) issueDay.strftime
        expiryDay.strftime 0 = .ok issuedCertificate ∧
      certificateData issuedCertificate ≠ .ok (certificateMessage issuedPacked).toList := by
  decide +kernel

end BattLock.Hardware
