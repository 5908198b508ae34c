import BattLock.Can.Message
import BattLock.Crypto.Battery
import BattLock.Lib.Base64

/-!
# Authentication and session messages

The encoders and decoders of `can/encoder.py` and `can/decoder.py` for the messages other than
status. A certificate travels as a JSON object with its binary fields in base64.
-/

namespace BattLock

open Python

def encodeAuthRequest : CANMessage := ⟨CanId.authRequest, encodeChars "AUTH".toList⟩

def encodeNonce (nonce : Bytes) : CANMessage := ⟨CanId.nonce, nonce⟩

def encodeSignature (signature : Bytes) : CANMessage := ⟨CanId.signature, signature⟩

def encodeSessionId (session : Session) : Except Err CANMessage := do
  let data ← session.sessionId.encode
  return ⟨CanId.sessionId, data⟩

/-- The members of a certificate's JSON object. -/
def certificateJson (certificate : Certificate Str) : Json :=
  .object [
    (Str.ofString "battery_id", .str certificate.batteryId),
    (Str.ofString "manufacturer_id", .str certificate.manufacturerId),
    (Str.ofString "public_key", .str (Str.ofChars (Base64.b64encode certificate.publicKey))),
    (Str.ofString "issue_date", .str certificate.issueDate),
    (Str.ofString "expiry_date", .str certificate.expiryDate),
    (Str.ofString "signature", .str (Str.ofChars (Base64.b64encode certificate.signature)))]

def encodeCertificate (certificate : Certificate Str) : CANMessage :=
  ⟨CanId.certificate, encodeChars (certificateJson certificate).dumps⟩

def decodeBatteryId (message : CANMessage) : Except Err Str := decode message.data

def decodeNonce (message : CANMessage) : Bytes := message.data

def decodeSignature (message : CANMessage) : Bytes := message.data

def decodeSessionId (message : CANMessage) : Except Err Str := decode message.data

/-- `base64.b64decode` of a JSON value. -/
def b64decodeJson : Json → Except Err Bytes
  | .str s => Base64.b64decode s
  | _ => .error .typeError

/-- The certificate in a JSON value; its text fields are kept as they are found. -/
def certificateOfJson (data : Json) : Except Err (Certificate Json) := do
  let batteryId ← data.getItem "battery_id"
  let manufacturerId ← data.getItem "manufacturer_id"
  let publicKey ← b64decodeJson (← data.getItem "public_key")
  let issueDate ← data.getItem "issue_date"
  let expiryDate ← data.getItem "expiry_date"
  let signature ← b64decodeJson (← data.getItem "signature")
  return ⟨batteryId, manufacturerId, publicKey, issueDate, expiryDate, signature⟩

def decodeCertificate [Interpreter] (message : CANMessage) : Except Err (Certificate Json) := do
  let text ← decodeChars message.data
  let data ← Json.loads text
  certificateOfJson data

theorem decodeCertificate_encodeCertificate [Interpreter] (c : Certificate Str) :
    decodeCertificate (encodeCertificate c) =
      Json.loads (certificateJson c).dumps >>= certificateOfJson := by
  rw [decodeCertificate, encodeCertificate, decodeChars_encodeChars, ok_bind]

end BattLock
