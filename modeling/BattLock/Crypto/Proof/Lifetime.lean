import BattLock.Crypto.Proof.Expiry

/-!
# The lifetime of a certificate

A certificate expires with the midnight of its expiry date (`isCertificateExpired_strftime`), and
its issue date is never looked at. So a certificate that is made at some reading of the clock, as
expired or as not yet issued, verifies until a day that only that reading decides, and no tampering
puts it off (`forged_verifies_iff`).
-/

namespace BattLock

open Python

variable {SK PK : Type}

theorem isUnicode_strftime (t : Datetime) : t.strftime.IsUnicode :=
  Str.isUnicode_of_encode (Str.encode_eq t.isAscii_strftime)

theorem isCertificateExpired_strftime {cert : Certificate Str} {expiry : Datetime}
    (hvalid : expiry.Valid) (hcert : cert.expiryDate = expiry.strftime) (now : Datetime) :
    isCertificateExpired cert now = .ok (expiry.midnight.lt now) := by
  have hdate : PyText.strptime cert.expiryDate = .ok expiry.midnight := by
    rw [hcert]
    exact Datetime.strptime_strftime hvalid
  rw [isCertificateExpired, hdate]
  rfl

theorem not_expired_iff {cert : Certificate Str} {expiry now : Datetime} (hvalid : expiry.Valid)
    (hcert : cert.expiryDate = expiry.strftime) (hnow : now.Valid) :
    isCertificateExpired cert now = .ok false ↔
      now.stamp ≤ expiry.ordinal * Datetime.dayLength := by
  rw [isCertificateExpired_strftime hvalid hcert, Except.ok.injEq, ← Bool.not_eq_true,
    Datetime.lt_iff hvalid.midnight hnow, Datetime.stamp_midnight, Nat.not_lt]

namespace CertificateTamperingAttack

section
variable {E : Ecdsa SK PK} {sk : SK} {batteryId manufacturerId issueDate : Str} {key : Bytes}
  {entropy : Nat} {expiry now : Datetime} {c : Certificate Str}

theorem expiryDate_of_created {expiryDate : Str}
    (hc : createCertificate E (RootCA.init E sk) batteryId manufacturerId key issueDate expiryDate
      entropy = .ok c) : c.expiryDate = expiryDate := by
  obtain ⟨data, -, hcert⟩ := bind_eq_ok.1 hc
  rw [← Except.ok.inj hcert]

/-- A tampered certificate with the signed bytes that is a date at all has the old date. -/
theorem expiryDate_tampered {c' : Certificate Str} {t t' : Datetime}
    (hdata : certificateData c' = certificateData c)
    (hsigned : ∃ data, certificateData c = .ok data) (ht : PyText.strptime c.expiryDate = .ok t)
    (ht' : PyText.strptime c'.expiryDate = .ok t') : c'.expiryDate = c.expiryDate := by
  obtain ⟨data, hsigned⟩ := hsigned
  obtain ⟨p, e, he, rfl⟩ := certificateData_ends hsigned
  obtain ⟨p', e', he', h⟩ := certificateData_ends (hdata.trans hsigned)
  exact expiryDate_eq ht' ht he' he h.symm

/-- **How long a certificate verifies**, tampered with or not. -/
theorem tampered_lifetime (hideal : E.Ideal sk) (hvalid : expiry.Valid) (hnow : now.Valid)
    (hc : createCertificate E (RootCA.init E sk) batteryId manufacturerId key issueDate
      expiry.strftime entropy = .ok c) (changes : List Change) :
    verifyCertificate E (tamper c changes) (E.publicKey sk) now = .ok true ↔
      certificateData (tamper c changes) = certificateData c ∧
        (tamper c changes).expiryDate = c.expiryDate ∧
        now.stamp ≤ expiry.ordinal * Datetime.dayLength := by
  have hdate := expiryDate_of_created hc
  rw [verifyCertificate_of_created hideal hc (signature_tamper c changes)]
  refine and_congr_right fun hdata => ?_
  constructor
  · intro hexpired
    obtain ⟨t', ht', -⟩ := bind_eq_ok.1 hexpired
    have ht : PyText.strptime c.expiryDate = .ok expiry.midnight := by
      rw [hdate]
      exact Datetime.strptime_strftime hvalid
    obtain ⟨data, hsigned, -⟩ := createCertificate_ok hc
    have hsame := expiryDate_tampered hdata ⟨data, hsigned⟩ ht ht'
    exact ⟨hsame, (not_expired_iff hvalid (hsame.trans hdate) hnow).1 hexpired⟩
  · intro h
    obtain ⟨hsame, hle⟩ := h
    exact (not_expired_iff hvalid (hsame.trans hdate) hnow).2 hle

end

/-! ## Forged certificates -/

/-- The two kinds of certificates that the attack has the trusted Root CA issue. -/
inductive Forgery
  | expired
  | future

def Forgery.create (E : Ecdsa SK PK) : Forgery → RootCA SK PK → Str → Str → Bytes → Datetime →
    Datetime → Nat → Except Err (Certificate Str)
  | expired => createExpiredCertificate E
  | future => createFutureCertificate E

/-- The number of the day on which it expires. -/
def Forgery.lastDay (utcnow utcnow' : Datetime) : Forgery → Nat
  | expired => utcnow.ordinal - 1
  | future => utcnow'.ordinal + 365

theorem Forgery.create_ok {E : Ecdsa SK PK} {forgery : Forgery} {rootCa : RootCA SK PK}
    {batteryId manufacturerId : Str} {key : Bytes} {utcnow utcnow' : Datetime} {entropy : Nat}
    {c : Certificate Str} (h : utcnow.Valid) (h' : utcnow'.Valid)
    (hc : forgery.create E rootCa batteryId manufacturerId key utcnow utcnow' entropy = .ok c) :
    ∃ (issueDate : Str) (expiry : Datetime), expiry.Valid ∧
      expiry.ordinal = forgery.lastDay utcnow utcnow' ∧
      createCertificate E rootCa batteryId manufacturerId key issueDate expiry.strftime entropy =
        .ok c := by
  cases forgery with
  | expired =>
    simp only [create, createExpiredCertificate, bind_eq_ok] at hc
    obtain ⟨yesterday, hyesterday, lastYear, -, hc⟩ := hc
    obtain ⟨hvalid, hday, -⟩ := Datetime.subDays_ok h hyesterday
    exact ⟨_, yesterday, hvalid, Nat.eq_sub_of_add_eq hday, hc⟩
  | future =>
    simp only [create, createFutureCertificate, bind_eq_ok] at hc
    obtain ⟨tomorrow, -, nextYear, hnextYear, hc⟩ := hc
    obtain ⟨hvalid, hday, -⟩ := Datetime.addDays_ok h' hnextYear
    exact ⟨_, nextYear, hvalid, hday, hc⟩

/-- **Forged certificates**: one that expired yesterday or one that is issued tomorrow verifies,
after any tampering, exactly while it still has the signed bytes and its expiry date and the clock
shows no later time than the midnight of that date. So the first never verifies again, and the
second already before it is issued. -/
theorem forged_verifies_iff (E : Ecdsa SK PK) {sk : SK} (hideal : E.Ideal sk) (forgery : Forgery)
    {batteryId manufacturerId : Str} {key : Bytes} {utcnow utcnow' now : Datetime} {entropy : Nat}
    {c : Certificate Str} (h : utcnow.Valid) (h' : utcnow'.Valid) (hnow : now.Valid)
    (hc : forgery.create E (RootCA.init E sk) batteryId manufacturerId key utcnow utcnow' entropy =
      .ok c) (changes : List Change) :
    (verifyCertificate E (tamper c changes) (E.publicKey sk) now = .ok true ↔
      certificateData (tamper c changes) = certificateData c ∧
        (tamper c changes).expiryDate = c.expiryDate ∧
        now.stamp ≤ forgery.lastDay utcnow utcnow' * Datetime.dayLength) ∧
      (utcnow.stamp ≤ now.stamp → forgery = .expired →
        verifyCertificate E (tamper c changes) (E.publicKey sk) now ≠ .ok true) := by
  obtain ⟨issueDate, expiry, hvalid, hday, hcreated⟩ := Forgery.create_ok h h' hc
  have hlifetime := tampered_lifetime hideal hvalid hnow hcreated changes
  rw [hday] at hlifetime
  refine ⟨hlifetime, fun hle hforgery hverified => ?_⟩
  obtain ⟨-, -, hlast⟩ := hlifetime.1 hverified
  rw [hforgery, Forgery.lastDay] at hlast
  have hpos : 1 ≤ utcnow.ordinal := Nat.le_add_left_of_le h.day.1
  have hlt := Datetime.lt_stamp_of_lt (show utcnow.ordinal - 1 < utcnow.ordinal by omega)
  omega

/-- A self-signed certificate is refused, tampered with or not, under every key that verifies no
signature of the rogue one. -/
theorem self_signed_refused {E : Ecdsa SK PK} {rogueKey : SK} {publicKey : PK}
    (hseparate : ∀ data entropy data', E.verify publicKey (E.sign rogueKey data entropy) data' ≠
      .ok ()) {batteryId manufacturerId : Str} {key : Bytes} {entropy : Nat} {c : Certificate Str}
    (hc : createSelfSignedCertificate E rogueKey batteryId manufacturerId key entropy = .ok c)
    (changes : List Change) (now : Datetime) :
    verifyCertificate E (tamper c changes) publicKey now ≠ .ok true := by
  intro h
  obtain ⟨data, -, hsign⟩ := createCertificate_ok hc
  obtain ⟨-, data', -, hverify⟩ := verifyCertificate_eq_true.1 h
  rw [signature_tamper, hsign] at hverify
  exact hseparate data entropy data' hverify

/-- Noon on the last day of a February. -/
def february : Datetime := ⟨2026, 2, 28, 43200000000⟩

theorem february_valid : february.Valid :=
  ⟨by decide, by decide, by decide, by decide⟩

/-- A certificate issued on the first of March is accepted the day before. -/
theorem forged_verifies_iff_early : ∃ c,
    Forgery.future.create plainEcdsa (RootCA.init plainEcdsa 7) (Str.ofString "BAT001")
        (Str.ofString "TESLA") [9] february february 0 = .ok c ∧
      c.issueDate = Str.ofString "2026-03-01" ∧
      verifyCertificate plainEcdsa (tamper c []) (plainEcdsa.publicKey 7) february = .ok true := by
  have hc : Forgery.future.create plainEcdsa (RootCA.init plainEcdsa 7) (Str.ofString "BAT001")
      (Str.ofString "TESLA") [9] february february 0 = .ok {
        batteryId := Str.ofString "BAT001"
        manufacturerId := Str.ofString "TESLA"
        publicKey := [9]
        issueDate := Str.ofString "2026-03-01"
        expiryDate := Str.ofString "2027-02-28"
        signature := 7 :: (encodeChars "BAT001TESLA".toList ++ [9] ++
          encodeChars "2026-03-012027-02-28".toList) } := by
    decide +kernel
  refine ⟨_, hc, rfl, (forged_verifies_iff plainEcdsa (plainEcdsa_ideal 7) .future february_valid
    february_valid february_valid hc []).1.2 ⟨rfl, rfl, by decide +kernel⟩⟩

end CertificateTamperingAttack

end BattLock
