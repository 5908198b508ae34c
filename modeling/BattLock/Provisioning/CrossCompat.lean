import BattLock.Crypto.CryptoApi
import BattLock.Provisioning.Provision

/-!
# The compatibility test

`provisioning/cross_compat_test.py`: a signature of the chip is verified in Python, one made in
Python is verified by the chip, and the chip is given the same one with a bit flipped.
`public_numbers` of the `cryptography` package is a parameter.
-/

namespace BattLock.CrossCompat

open Python Provisioning

/-- `bytes(range(32))`. -/
def testNonce : Bytes := (List.range 32).map .ofNat

/-- `sign_message_raw(private_key, message)` of `crypto/crypto_utils/signatures.py`. -/
def signMessageRaw {SK PK : Type} (E : Ecdsa SK PK) (D : Dss) (privateKey : SK) (message : Bytes)
    (entropy : Nat) : Except Err Bytes :=
  derToRaw D (signMessage E privateKey message entropy)

/-- `bad_sig[0] ^= 0x01`. -/
def flipFirst : Bytes → Except Err Bytes
  | [] => .error .indexError
  | b :: bs => .ok ((b ^^^ 0x01) :: bs)

/-- The chip's randomness and how many characters arrive in time, for each query. -/
structure Queries where
  sign : Nat × Nat
  pubkey : Nat × Nat
  verify : Nat × Nat
  verifyBad : Nat × Nat

section
variable {κ SK PK : Type}

/-- `_pubkey_to_raw(pub_key_obj)`: X and Y. -/
def pubkeyToRaw (publicNumbers : PK → Nat × Nat) (pubKeyObj : PK) : Except Err Bytes := do
  let (x, y) := publicNumbers pubKeyObj
  return (← toBytes x 32) ++ (← toBytes y 32)

variable (element : SecureElement κ)

def sign (data : Bytes) (entropy arriving : Nat) : Prog (Bench κ) Err Bytes := fun s =>
  let (chip, r) := s.chip.sign data ⟨element.chip s.element entropy, arriving⟩
  ({ s with
      chip, element := element.asked s.chip s.element entropy (SerialATECC608.signRequest data) },
    r)

def query (line : List Char) (entropy arriving : Nat) : Prog (Bench κ) Err (List Char) := fun s =>
  let (chip, r) := s.chip.query line ⟨element.chip s.element entropy, arriving⟩
  ({ s with chip, element := element.asked s.chip s.element entropy line }, r)

/-- `assert condition, message`. -/
def assert (condition : Bool) (message : String) : Prog (Bench κ) Err Unit :=
  Prog.lift (if condition then .ok () else .error (.assertionError message))

variable (E : Ecdsa SK PK) (D : Dss) (fromEncodedPoint : Bytes → Except Err PK)
  (publicNumbers : PK → Nat × Nat)

/-- Test A: the chip signs, Python verifies. -/
def testA (queries : Queries) : Prog (Bench κ) Err Unit := do
  let sigHw ← sign element testNonce queries.sign.1 queries.sign.2
  let pubKey ← getPublicKey element fromEncodedPoint queries.pubkey.1 queries.pubkey.2
  let okA ← Prog.lift (CryptoApi.verifySignature E D testNonce sigHw (serializePublicKey E pubKey))
  assert okA "Test A FAILED"

/-- Test B: Python signs, the chip verifies. -/
def testB (queries : Queries) (priv : SK) (signing : Nat) : Prog (Bench κ) Err (Bytes × Bytes) := do
  let sigSw ← Prog.lift (signMessageRaw E D priv testNonce signing)
  let pubRaw ← Prog.lift (pubkeyToRaw publicNumbers (E.publicKey priv))
  let resp ← query element (verifyRequest testNonce sigSw pubRaw) queries.verify.1 queries.verify.2
  assert (resp = "VERIFY:1".toList) "Test B FAILED"
  return (sigSw, pubRaw)

/-- Test C: the chip refuses a tampered signature. -/
def testC (queries : Queries) (sigSw pubRaw : Bytes) : Prog (Bench κ) Err Unit := do
  let badSig ← Prog.lift (flipFirst sigSw)
  let resp ← query element (verifyRequest testNonce badSig pubRaw) queries.verifyBad.1
    queries.verifyBad.2
  assert (resp = "VERIFY:0".toList) "Test C FAILED"

/-- `main()` with the generated private key and the randomness of its signature. -/
def main (port : String) (env : Surroundings SK) (queries : Queries) (priv : SK)
    (signing : Nat) : Prog (Bench κ) Err Unit := do
  connect element port env
  testA element E D fromEncodedPoint queries
  let (sigSw, pubRaw) ← testB element E D publicNumbers queries priv signing
  testC element queries sigSw pubRaw
  close env.closed

end

end BattLock.CrossCompat
