import BattLock.Crypto.Certificate
import BattLock.Lib.Ordinal

/-!
# Certificate tampering

`attacks/certificate_tampering_attack.py`. A field name given to `tamper_certificate_field` selects
a field, and the new value has the type the certificate declares for it. The functions that create
certificates read the clock twice.
-/

namespace BattLock.CertificateTamperingAttack

open Python

inductive Field
  | batteryId
  | manufacturerId
  | issueDate
  | expiryDate
  | publicKey
deriving DecidableEq

namespace Field

/-- The declared type of a field. -/
abbrev Value : Field → Type
  | publicKey => Bytes
  | _ => Str

/-- The field with a name. -/
def named (fieldName : String) : Except Err Field :=
  if fieldName = "battery_id" then .ok batteryId
  else if fieldName = "manufacturer_id" then .ok manufacturerId
  else if fieldName = "issue_date" then .ok issueDate
  else if fieldName = "expiry_date" then .ok expiryDate
  else if fieldName = "public_key" then .ok publicKey
  else .error (.valueError s!"Unknown certificate field: {fieldName}")

end Field

/-- A field and its new value. -/
structure Change where
  field : Field
  newValue : field.Value

/-- Set a field; the signature stays. -/
def Change.apply (certificate : Certificate Str) : Change → Certificate Str
  | ⟨.batteryId, newValue⟩ => { certificate with batteryId := newValue }
  | ⟨.manufacturerId, newValue⟩ => { certificate with manufacturerId := newValue }
  | ⟨.issueDate, newValue⟩ => { certificate with issueDate := newValue }
  | ⟨.expiryDate, newValue⟩ => { certificate with expiryDate := newValue }
  | ⟨.publicKey, newValue⟩ => { certificate with publicKey := newValue }

/-- Modify the field with a name, to a value of the type of that field. -/
def tamperCertificateField (certificate : Certificate Str) (fieldName : String)
    (newValue : ∀ field, Field.named fieldName = .ok field → field.Value) :
    Except Err (Certificate Str) :=
  match h : Field.named fieldName with
  | .ok field => .ok (Change.apply certificate ⟨field, newValue field h⟩)
  | .error e => .error e

/-- A sequence of changes, one call each. -/
def tamper (certificate : Certificate Str) (changes : List Change) : Certificate Str :=
  changes.foldl Change.apply certificate

/-! ## Created certificates -/

section
variable {SK PK : Type} (E : Ecdsa SK PK)

/-- Issued a year ago, and expired yesterday. -/
def createExpiredCertificate (rootCa : RootCA SK PK) (batteryId manufacturerId : Str)
    (publicKey : Bytes) (utcnow utcnow' : Datetime) (entropy : Nat) :
    Except Err (Certificate Str) := do
  let yesterday ← utcnow.subDays 1
  let lastYear ← utcnow'.subDays 365
  createCertificate E rootCa batteryId manufacturerId publicKey lastYear.strftime
    yesterday.strftime entropy

/-- Issued tomorrow. -/
def createFutureCertificate (rootCa : RootCA SK PK) (batteryId manufacturerId : Str)
    (publicKey : Bytes) (utcnow utcnow' : Datetime) (entropy : Nat) :
    Except Err (Certificate Str) := do
  let tomorrow ← utcnow.addDays 1
  let nextYear ← utcnow'.addDays 365
  createCertificate E rootCa batteryId manufacturerId publicKey tomorrow.strftime
    nextYear.strftime entropy

/-- Signed by a Root CA of its own. -/
def createSelfSignedCertificate (rogueKey : SK) (batteryId manufacturerId : Str)
    (publicKey : Bytes) (entropy : Nat) : Except Err (Certificate Str) :=
  createCertificate E (RootCA.init E rogueKey) batteryId manufacturerId publicKey
    (Str.ofString "2026-01-01") (Str.ofString "2031-01-01") entropy

end

end BattLock.CertificateTamperingAttack
