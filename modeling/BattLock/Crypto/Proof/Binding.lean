import BattLock.Attacks.CertificateTampering

/-!
# What a certificate's signature binds

The signature is over the concatenation of five fields without separators. Under an ideal
scheme a changed certificate verifies exactly when its fields still concatenate to the signed
bytes and its expiry date has not passed (`verifyCertificate_of_created`); bytes that move across
a field boundary change the identity and keep the signature (`tampered_verifies_iff`).
-/

namespace BattLock

open Python CertificateTamperingAttack

variable {SK PK τ : Type} [PyText τ] {E : Ecdsa SK PK}

theorem verifyCertificate_eq_true {certificate : Certificate τ} {publicKey : PK}
    {now : Datetime} :
    verifyCertificate E certificate publicKey now = .ok true ↔
      isCertificateExpired certificate now = .ok false ∧
        ∃ data, certificateData certificate = .ok data ∧
          E.verify publicKey certificate.signature data = .ok () := by
  unfold verifyCertificate
  cases hexp : isCertificateExpired certificate now with
  | error e => simp
  | ok expired =>
    cases expired with
    | true => simp
    | false => simp [bind_eq_ok, verifySignature_eq_true]

theorem createCertificate_ok {sk : SK} {batteryId manufacturerId issueDate expiryDate : Str}
    {key : Bytes} {entropy : Nat} {c : Certificate Str}
    (h : createCertificate E (RootCA.init E sk) batteryId manufacturerId key issueDate expiryDate
      entropy = .ok c) :
    ∃ data, certificateData c = .ok data ∧ c.signature = E.sign sk data entropy := by
  simp only [createCertificate, bind_eq_ok, pure_eq_ok, Except.ok.injEq] at h
  obtain ⟨data, hdata, rfl⟩ := h
  exact ⟨data, hdata, rfl⟩

theorem signature_apply (c : Certificate Str) (change : Change) :
    (Change.apply c change).signature = c.signature := by
  obtain ⟨field, newValue⟩ := change
  cases field <;> rfl

@[simp] theorem signature_tamper (c : Certificate Str) (changes : List Change) :
    (tamper c changes).signature = c.signature := by
  induction changes generalizing c with
  | nil => rfl
  | cons change changes ih =>
    rw [tamper, List.foldl_cons, ← tamper, ih, signature_apply]

/-- Under an ideal scheme, a certificate with the signature of a created one verifies exactly
when its fields concatenate to the same bytes and it has not expired. -/
theorem verifyCertificate_of_created {sk : SK} (hideal : E.Ideal sk) {now : Datetime}
    {batteryId manufacturerId issueDate expiryDate : Str} {key : Bytes} {entropy : Nat}
    {c c' : Certificate Str}
    (hc : createCertificate E (RootCA.init E sk) batteryId manufacturerId key issueDate expiryDate
      entropy = .ok c) (hsig : c'.signature = c.signature) :
    verifyCertificate E c' (E.publicKey sk) now = .ok true ↔
      certificateData c' = certificateData c ∧ isCertificateExpired c' now = .ok false := by
  obtain ⟨data, hdata, hsign⟩ := createCertificate_ok hc
  rw [verifyCertificate_eq_true, and_comm, hdata, hsig, hsign]
  refine and_congr_left fun _ => ?_
  constructor
  · intro h
    obtain ⟨data', hdata', hverify⟩ := h
    rw [hideal] at hverify
    split at hverify
    · rename_i heq
      rw [hdata', heq]
    · cases hverify
  · intro heq
    exact ⟨data, heq, by rw [hideal, if_pos rfl]⟩

theorem tamperCertificateField_cases (c : Certificate Str) (fieldName : String)
    (newValue : ∀ field, Field.named fieldName = .ok field → field.Value) :
    (∃ change, tamperCertificateField c fieldName newValue = .ok (Change.apply c change)) ∨
      tamperCertificateField c fieldName newValue =
        .error (.valueError ("Unknown certificate field: " ++ fieldName)) := by
  unfold tamperCertificateField
  split
  · exact .inl ⟨_, rfl⟩
  · rename_i e h
    refine .inr ?_
    unfold Field.named at h
    repeat' split at h
    all_goals cases h
    rfl

/-! ## A toy scheme -/

/-- Keys are names, a signature is the signer's name before the signed bytes. -/
def plainEcdsa : Ecdsa UInt8 UInt8 where
  publicKey sk := sk
  sign sk data _ := sk :: data
  verify pk signature data := if signature = pk :: data then .ok () else .error .invalidSignature
  loadPemPublicKey
    | [b] => .ok b
    | _ => .error (.valueError "Unable to load PEM file")
  publicBytes pk := [pk]

theorem plainEcdsa_ideal (sk : UInt8) : plainEcdsa.Ideal sk := by
  intro data entropy data'
  simp [plainEcdsa, eq_comm]

/-- A certificate issued under key 7. -/
def teslaCertificate : Certificate Str where
  batteryId := Str.ofString "BAT001"
  manufacturerId := Str.ofString "TESLA"
  publicKey := [9]
  issueDate := Str.ofString "2026-01-01"
  expiryDate := Str.ofString "2031-01-01"
  signature := 7 :: (encodeChars "BAT001TESLA".toList ++ [9] ++
    encodeChars "2026-01-012031-01-01".toList)

theorem createCertificate_tesla :
    createCertificate plainEcdsa (RootCA.init plainEcdsa 7) (Str.ofString "BAT001")
      (Str.ofString "TESLA") [9] (Str.ofString "2026-01-01") (Str.ofString "2031-01-01") 0 =
        .ok teslaCertificate := by
  decide +kernel

/-! ## Tampering -/

/-- The certificate names another battery, another manufacturer or another key. -/
def IdentityChanged (c c' : Certificate Str) : Prop :=
  c'.batteryId ≠ c.batteryId ∨ c'.manufacturerId ≠ c.manufacturerId ∨ c'.publicKey ≠ c.publicKey

instance (c c' : Certificate Str) : Decidable (IdentityChanged c c') :=
  inferInstanceAs (Decidable (_ ∨ _ ∨ _))

/-- **When tampering is caught**: a change of the identity or the key is refused unless the
changed fields concatenate to the signed bytes and the certificate is not expired. -/
theorem tampered_refused_iff (E : Ecdsa SK PK) {sk : SK} (hideal : E.Ideal sk) (now : Datetime)
    {batteryId manufacturerId issueDate expiryDate : Str} {key : Bytes} {entropy : Nat}
    {c : Certificate Str}
    (hc : createCertificate E (RootCA.init E sk) batteryId manufacturerId key issueDate expiryDate
      entropy = .ok c) (changes : List Change) :
    (IdentityChanged c (tamper c changes) →
        verifyCertificate E (tamper c changes) (E.publicKey sk) now ≠ .ok true) ↔
      ¬ (IdentityChanged c (tamper c changes) ∧
        certificateData (tamper c changes) = certificateData c ∧
          isCertificateExpired (tamper c changes) now = .ok false) := by
  rw [Ne, verifyCertificate_of_created hideal hc (signature_tamper c changes)]
  tauto

/-- Another battery id is refused. -/
theorem tampered_refused_bat002 :
    verifyCertificate plainEcdsa
      (tamper teslaCertificate [⟨.batteryId, Str.ofString "BAT002"⟩]) 7 ⟨2026, 6, 1, 0⟩ ≠
        .ok true :=
  (tampered_refused_iff plainEcdsa (plainEcdsa_ideal 7) ⟨2026, 6, 1, 0⟩ createCertificate_tesla
    [⟨.batteryId, Str.ofString "BAT002"⟩]).2 (by decide +kernel) (by decide +kernel)

/-- A letter moved from the manufacturer to the battery id is not. -/
theorem boundary_shift_verifies :
    plainEcdsa.Ideal 7 ∧
      createCertificate plainEcdsa (RootCA.init plainEcdsa 7) (Str.ofString "BAT001")
        (Str.ofString "TESLA") [9] (Str.ofString "2026-01-01") (Str.ofString "2031-01-01") 0 =
          .ok teslaCertificate ∧
      IdentityChanged teslaCertificate (tamper teslaCertificate
        [⟨.batteryId, Str.ofString "BAT001T"⟩, ⟨.manufacturerId, Str.ofString "ESLA"⟩]) ∧
      verifyCertificate plainEcdsa (tamper teslaCertificate
        [⟨.batteryId, Str.ofString "BAT001T"⟩, ⟨.manufacturerId, Str.ofString "ESLA"⟩]) 7
          ⟨2026, 6, 1, 0⟩ = .ok true := by
  refine ⟨plainEcdsa_ideal 7, createCertificate_tesla, .inl ?_, ?_⟩ <;> decide +kernel

end BattLock
