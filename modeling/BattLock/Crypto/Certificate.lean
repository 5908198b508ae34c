import BattLock.Crypto.Signatures
import BattLock.Lib.Calendar
import BattLock.Lib.Json

/-!
# Certificates

`crypto/models/certificate_model.py` and `crypto/certs/certificate.py`. The text fields have a
type of their own: `Str` in a certificate made by the code, `Json` in one decoded from a message,
where each is whatever the JSON text holds (`PyText`).
-/

namespace BattLock

open Python

/-- A value the code uses as a `str`: `encode` and `strptime` fail on other values. -/
class PyText (τ : Type) where
  encode : τ → Except Err Bytes
  strptime : τ → Except Err Datetime

instance : PyText Str where
  encode := Str.encode
  strptime := Datetime.strptime

/-- Other values than strings have no `encode` and are refused by `strptime`. -/
instance : PyText Json where
  encode
    | .str s => s.encode
    | _ => .error .attributeError
  strptime
    | .str s => Datetime.strptime s
    | _ => .error .typeError

structure Certificate (τ : Type) where
  batteryId : τ
  manufacturerId : τ
  publicKey : Bytes
  issueDate : τ
  expiryDate : τ
  signature : Bytes
deriving DecidableEq

variable {SK PK τ : Type} [PyText τ] (E : Ecdsa SK PK)

/-- The bytes a certificate's signature is over. -/
def certificateData (certificate : Certificate τ) : Except Err Bytes := do
  let batteryId ← PyText.encode certificate.batteryId
  let manufacturerId ← PyText.encode certificate.manufacturerId
  let issueDate ← PyText.encode certificate.issueDate
  let expiryDate ← PyText.encode certificate.expiryDate
  return batteryId ++ manufacturerId ++ certificate.publicKey ++ issueDate ++ expiryDate

def createCertificate (rootCa : RootCA SK PK) (batteryId manufacturerId : Str)
    (batteryPublicKey : Bytes) (issueDate expiryDate : Str) (entropy : Nat) :
    Except Err (Certificate Str) := do
  let unsigned : Certificate Str :=
    ⟨batteryId, manufacturerId, batteryPublicKey, issueDate, expiryDate, []⟩
  let data ← certificateData unsigned
  return { unsigned with signature := E.sign rootCa.privateKey data entropy }

/-- `now` is the reading of the clock. -/
def isCertificateExpired (certificate : Certificate τ) (now : Datetime) : Except Err Bool := do
  let expiryDate ← PyText.strptime certificate.expiryDate
  return expiryDate.lt now

def verifyCertificate (certificate : Certificate τ) (manufacturerPublicKey : PK)
    (now : Datetime) : Except Err Bool := do
  if ← isCertificateExpired certificate now then
    return false
  else
    let data ← certificateData certificate
    verifySignature E manufacturerPublicKey data certificate.signature

end BattLock
