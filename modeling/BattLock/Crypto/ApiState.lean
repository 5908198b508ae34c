import BattLock.Crypto.Counters
import BattLock.Crypto.CryptoApi
import BattLock.Lib.Mealy

/-!
# The state of the cryptographic API

The globals of `crypto/crypto_api.py` and the operations that the integration layer calls. The
provider of a key manager is the software one or one of another type, and the software one is made
when a key is needed and none was configured. Generated keys and random values are arguments.
-/

namespace BattLock.CryptoApi

open Python

/-- `KeyManager(use_hardware=False)` has software keys, `KeyManager(use_hardware=True)` others. -/
instance {π ρ PK : Type} [KeyProvider π PK] [KeyProvider ρ PK] : KeyProvider (π ⊕ ρ) PK where
  sign
    | .inl provider => KeyProvider.sign provider
    | .inr provider => KeyProvider.sign provider
  getPublicKey
    | .inl provider => KeyProvider.getPublicKey provider
    | .inr provider => KeyProvider.getPublicKey provider

variable {SK PK : Type} (E : Ecdsa SK PK) (D : Dss) (ρ τ : Type)

abbrev Keys := KeyManager (SoftwareProvider E ⊕ ρ)

/-- The module's globals. -/
structure Module where
  keyManager : Option (Keys E ρ) := none
  rootCaPublicKey : Option PK := none
  replay : ReplayProtection := {}

/-- A key object or PEM bytes. -/
inductive RootKey (PK : Type)
  | object (publicKey : PK)
  | bytes (publicKey : Bytes)

def RootKey.load : RootKey PK → Except Err PK
  | object publicKey => .ok publicKey
  | bytes publicKey => deserializePublicKey E publicKey

variable {E ρ τ} [KeyProvider ρ PK] [PyText τ]

/-- `KeyManager(use_hardware=False)` with the key it generates. -/
def softwareKeys (generated : SK) : Keys E ρ := ⟨.inl ⟨SoftwareKeys.init E generated⟩⟩

namespace Module

/-- The default is kept once it is made. -/
def getKeyManager (self : Module E ρ) (generated : SK) : Module E ρ × Keys E ρ :=
  match self.keyManager with
  | some keyManager => (self, keyManager)
  | none =>
    let keyManager := softwareKeys generated
    ({ self with keyManager := some keyManager }, keyManager)

/-- `key_manager or _get_key_manager()`. -/
def keyManagerOr (self : Module E ρ) (keyManager : Option (Keys E ρ)) (generated : SK) :
    Module E ρ × Keys E ρ :=
  match keyManager with
  | some keyManager => (self, keyManager)
  | none => self.getKeyManager generated

/-- A key that cannot be loaded leaves the old one. -/
def setRootCaPublicKey (self : Module E ρ) (publicKey : RootKey PK) :
    Module E ρ × Except Err Unit :=
  match publicKey.load E with
  | .ok publicKey => ({ self with rootCaPublicKey := some publicKey }, .ok ())
  | .error e => (self, .error e)

def signNonce (self : Module E ρ) (nonce : Bytes) (keyManager : Option (Keys E ρ)) (generated : SK)
    (entropy : Nat) : Module E ρ × Except Err Bytes :=
  let (self, km) := self.keyManagerOr keyManager generated
  (self, CryptoApi.signNonce D km nonce entropy)

def getPublicKeyBytes (self : Module E ρ) (keyManager : Option (Keys E ρ)) (generated : SK) :
    Module E ρ × Except Err Bytes :=
  let (self, km) := self.keyManagerOr keyManager generated
  (self, km.getPublicKey.map (serializePublicKey E))

def verifyCertificate (self : Module E ρ) (certificate : Certificate τ) (now : Datetime) :
    Except Err Bool :=
  match self.rootCaPublicKey with
  | none => .error (.runtimeError ("crypto_api.verify_certificate: no Root CA key configured. " ++
      "Call set_root_ca_public_key() first."))
  | some publicKey => BattLock.verifyCertificate E certificate publicKey now

def checkCounter (self : Module E ρ) (counter : Int) : Module E ρ × Bool :=
  let (replay, fresh) := self.replay.validate counter
  ({ self with replay }, fresh)

def resetCounter (self : Module E ρ) : Module E ρ := { self with replay := {} }

end Module

/-! ## Calls -/

variable (E ρ τ)

inductive Call
  /-- `None` is a key manager too. -/
  | configureKeyManager (keyManager : Option (Keys E ρ))
  | setRootCaPublicKey (publicKey : RootKey PK)
  | generateNonce (random : Bytes)
  | signNonce (nonce : Bytes) (keyManager : Option (Keys E ρ)) (generated : SK) (entropy : Nat)
  | getPublicKeyBytes (keyManager : Option (Keys E ρ)) (generated : SK)
  | verifySignature (nonce signature publicKeyBytes : Bytes)
  | verifyCertificate (certificate : Certificate τ) (now : Datetime)
  | createSession (batteryId sessionId : Str)
  | checkCounter (counter : Int)
  | resetCounter

inductive Value
  | unit
  | bytes (value : Bytes)
  | bool (value : Bool)
  | session (value : Session)

variable {E ρ τ}

/-- The module under calls of its functions. -/
def api : Mealy (Module E ρ) (Call E ρ τ) (Except Err Value) where
  step self
    | .configureKeyManager keyManager => ({ self with keyManager }, .ok .unit)
    | .setRootCaPublicKey publicKey =>
      ((self.setRootCaPublicKey publicKey).1,
        (self.setRootCaPublicKey publicKey).2.map fun () => .unit)
    | .generateNonce random => (self, .ok (.bytes random))
    | .signNonce nonce keyManager generated entropy =>
      ((self.signNonce D nonce keyManager generated entropy).1,
        (self.signNonce D nonce keyManager generated entropy).2.map .bytes)
    | .getPublicKeyBytes keyManager generated =>
      ((self.getPublicKeyBytes keyManager generated).1,
        (self.getPublicKeyBytes keyManager generated).2.map .bytes)
    | .verifySignature nonce signature publicKeyBytes =>
      (self, (CryptoApi.verifySignature E D nonce signature publicKeyBytes).map .bool)
    | .verifyCertificate certificate now =>
      (self, (self.verifyCertificate certificate now).map .bool)
    | .createSession batteryId sessionId =>
      (self, .ok (.session (BattLock.createSession batteryId sessionId)))
    | .checkCounter counter =>
      ((self.checkCounter counter).1, .ok (.bool (self.checkCounter counter).2))
    | .resetCounter => (self.resetCounter, .ok .unit)

/-- The answer to a call after others. -/
def answer (calls : List (Call E ρ τ)) (call : Call E ρ τ) : Except Err Value :=
  ((api D).step ((api D).run {} calls) call).2

end BattLock.CryptoApi
