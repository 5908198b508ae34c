import BattLock.Crypto.Certificate

/-!
# The battery and its keys

`crypto/keys/key_manager.py`, `crypto/models/battery.py` and `crypto/models/battery_identity.py`,
with the challenge and the session of `crypto/auth/`. A key manager works with any provider that
signs and has a public key (`KeyProvider`). Random values are arguments.
-/

namespace BattLock

open Python

/-- The interface of a key provider; the number is the randomness of the signature. -/
class KeyProvider (π : Type) (PK : outParam Type) where
  sign : π → Bytes → Nat → Except Err Bytes
  getPublicKey : π → Except Err PK

/-- Software keys of a given `cryptography` package. -/
structure SoftwareProvider {SK PK : Type} (E : Ecdsa SK PK) where
  keys : SoftwareKeys SK PK

instance {SK PK : Type} {E : Ecdsa SK PK} : KeyProvider (SoftwareProvider E) PK where
  sign self data entropy := .ok (signMessage E self.keys.privateKey data entropy)
  getPublicKey self := .ok self.keys.publicKey

structure KeyManager (π : Type) where
  provider : π

variable {π PK : Type} [KeyProvider π PK]

def KeyManager.sign (self : KeyManager π) (data : Bytes) (entropy : Nat) : Except Err Bytes :=
  KeyProvider.sign self.provider data entropy

def KeyManager.getPublicKey (self : KeyManager π) : Except Err PK :=
  KeyProvider.getPublicKey self.provider

structure BatteryIdentity where
  batteryId : Str
  serialNumber : Str
  manufacturerId : Str

structure Battery (π : Type) where
  identity : BatteryIdentity
  keys : KeyManager π
  certificate : Option (Certificate Str) := none

def Battery.sign (self : Battery π) (data : Bytes) (entropy : Nat) : Except Err Bytes :=
  self.keys.sign data entropy

def Battery.getPublicKey (self : Battery π) : Except Err PK := self.keys.getPublicKey

/-! ## Challenges and sessions -/

/-- What `create_challenge` makes: 32 random bytes and the time in seconds. -/
structure Challenge where
  nonce : Bytes
  timestamp : Int
  length_nonce : nonce.length = 32

structure Session where
  sessionId : Str
  batteryId : Str

/-- `create_session` with the generated session id. -/
def createSession (batteryId sessionId : Str) : Session := ⟨sessionId, batteryId⟩

end BattLock
