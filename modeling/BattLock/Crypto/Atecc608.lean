import BattLock.Crypto.Battery
import BattLock.Lib.Hex

/-!
# The secure element

`crypto/keys/atecc608.py`, the hardware provider of `crypto/keys/key_manager.py`. The serial bridge
is a function from command lines to the lines it answers; `from_encoded_point` of the
`cryptography` package is a parameter.
-/

namespace BattLock

open Python

/-- A chip behind its bridge. The answer to a line is read, decoded and stripped; the number is
whatever else the answer depends on, the randomness of a signature among it. -/
structure ATECC608 {PK : Type} (fromEncodedPoint : Bytes → Except Err PK) where
  connected : Bool
  query : List Char → Nat → Except Err (List Char)

namespace ATECC608

variable {PK : Type} {fromEncodedPoint : Bytes → Except Err PK}

/-- The bytes after the prefix of an answer. -/
def payload (resp : List Char) : Except Err Bytes := fromHex (resp.drop 4)

/-- Sign a message of 32 bytes on the chip; the signature is raw. -/
def sign (self : ATECC608 fromEncodedPoint) (data : Bytes) (entropy : Nat) : Except Err Bytes :=
  if ¬ self.connected then .error (.runtimeError "ATECC608: call connect() first")
  else if data.length ≠ 32 then
    .error (.valueError "ATECC608.sign: message must be 32 bytes")
  else do
    let resp ← self.query ("SIGN ".toList ++ hex data) entropy
    if ¬ "SIG:".toList.isPrefixOf resp then
      .error (.runtimeError ("sign failed: " ++ String.ofList resp))
    else do
      let raw ← payload resp
      if raw.length ≠ rawSigLen then
        .error (.runtimeError
          s!"sign returned {raw.length} bytes, expected {rawSigLen}")
      else return raw

/-- A SEC1 uncompressed point. -/
def rawPubkeyToKey (fromEncodedPoint : Bytes → Except Err PK) (raw : Bytes) : Except Err PK :=
  fromEncodedPoint (0x04 :: raw)

def getPublicKey (self : ATECC608 fromEncodedPoint) : Except Err PK :=
  if ¬ self.connected then .error (.runtimeError "ATECC608: call connect() first")
  else do
    let resp ← self.query "PUBKEY".toList 0
    if ¬ "PUB:".toList.isPrefixOf resp then
      .error (.runtimeError ("get_public_key failed: " ++ String.ofList resp))
    else do
      let raw ← payload resp
      rawPubkeyToKey fromEncodedPoint raw

end ATECC608

/-! ## Providers -/

/-- The two providers a key manager is made with. -/
inductive Provider {SK PK : Type} (E : Ecdsa SK PK) (fromEncodedPoint : Bytes → Except Err PK)
  | software (keys : SoftwareProvider E)
  | hardware (chip : ATECC608 fromEncodedPoint)

section
variable {SK PK : Type} {E : Ecdsa SK PK} {fromEncodedPoint : Bytes → Except Err PK}

instance : KeyProvider (Provider E fromEncodedPoint) PK where
  sign
    | .software keys => KeyProvider.sign keys
    | .hardware chip => chip.sign
  getPublicKey
    | .software keys => KeyProvider.getPublicKey keys
    | .hardware chip => chip.getPublicKey

/-- `KeyManager(use_hardware)` with the connected chip and the generated private key. -/
def KeyManager.init (useHardware : Bool) (chip : ATECC608 fromEncodedPoint) (privateKey : SK) :
    KeyManager (Provider E fromEncodedPoint) where
  provider :=
    if useHardware then .hardware chip else .software ⟨SoftwareKeys.init E privateKey⟩

end

/-! ## Signing on the chip -/

namespace ATECC608

variable {PK : Type} {fromEncodedPoint : Bytes → Except Err PK} {self : ATECC608 fromEncodedPoint}
  {data : Bytes} {entropy : Nat}

/-- The chip signs what the bridge answers with. -/
theorem sign_of_query {raw : Bytes} (hconnected : self.connected = true)
    (hdata : data.length = 32) (hraw : raw.length = rawSigLen)
    (hquery : self.query ("SIGN ".toList ++ hex data) entropy = .ok ("SIG:".toList ++ hex raw)) :
    self.sign data entropy = .ok raw := by
  have hpayload : payload ("SIG:".toList ++ hex raw) = .ok raw := fromHex_hex raw
  have hprefix : "SIG:".toList.isPrefixOf ("SIG:".toList ++ hex raw) = true :=
    isPrefixOf_append _ _
  rw [sign, if_neg (not_not.2 hconnected), if_neg (not_not.2 hdata), hquery, ok_bind,
    if_neg (not_not.2 hprefix), hpayload, ok_bind, if_neg (not_not.2 hraw), pure_eq_ok]

/-- A message of another length is not signed. -/
theorem sign_of_length_ne (hdata : data.length ≠ 32) :
    self.sign data entropy = .error (if self.connected
      then .valueError "ATECC608.sign: message must be 32 bytes"
      else .runtimeError "ATECC608: call connect() first") := by
  by_cases hconnected : self.connected
  · rw [sign, if_neg (not_not.2 hconnected), if_pos hdata, if_pos hconnected]
  · rw [sign, if_pos hconnected, if_neg hconnected]

end ATECC608

end BattLock
