import BattLock.Lib.Python

/-!
# Keys and signatures

`crypto/crypto_utils/signatures.py`, `crypto/crypto_utils/key_serialization.py`,
`crypto/certs/root_ca.py` and `crypto/keys/software_keys.py`, over the part of the `cryptography`
package they use, which is a parameter (`Ecdsa`): private keys of type `SK`, public keys of type
`PK`. The randomness of a signature is an argument.
-/

namespace BattLock

open Python

/-- The operations of the `cryptography` package. `verify` returns or raises: `InvalidSignature`
for a signature it refuses, another exception for a key of another algorithm. -/
structure Ecdsa (SK PK : Type) where
  publicKey : SK → PK
  sign : SK → Bytes → Nat → Bytes
  verify : PK → Bytes → Bytes → Except Err Unit
  loadPemPublicKey : Bytes → Except Err PK
  publicBytes : PK → Bytes

variable {SK PK : Type} (E : Ecdsa SK PK)

/-- An ideal scheme for a key: a signature verifies on the bytes that were signed and is refused
on all others. -/
def Ecdsa.Ideal (sk : SK) : Prop :=
  ∀ data entropy data', E.verify (E.publicKey sk) (E.sign sk data entropy) data' =
    if data' = data then .ok () else .error .invalidSignature

def signMessage (privateKey : SK) (message : Bytes) (entropy : Nat) : Bytes :=
  E.sign privateKey message entropy

/-- Only `InvalidSignature` is turned into a verdict. -/
def verifySignature (publicKey : PK) (message signature : Bytes) : Except Err Bool :=
  match E.verify publicKey signature message with
  | .ok () => .ok true
  | .error .invalidSignature => .ok false
  | .error e => .error e

/-! ## Raw signatures -/

/-- R and S, 32 bytes each. -/
def rawSigLen : Nat := 64

def curveScalarLen : Nat := 32

/-- `encode_dss_signature` and `decode_dss_signature` of the `cryptography` package. -/
structure Dss where
  encodeDssSignature : Nat → Nat → Bytes
  decodeDssSignature : Bytes → Except Err (Int × Int)

variable (D : Dss)

def derToRaw (derSignature : Bytes) : Except Err Bytes := do
  let (r, s) ← D.decodeDssSignature derSignature
  return (← toBytes r curveScalarLen) ++ (← toBytes s curveScalarLen)

def rawToDer (rawSignature : Bytes) : Except Err Bytes :=
  if rawSignature.length ≠ rawSigLen then
    .error (.valueError
      s!"raw signature must be {rawSigLen} bytes, got {rawSignature.length}")
  else
    let r := fromBytes (rawSignature.take curveScalarLen)
    let s := fromBytes (rawSignature.drop curveScalarLen)
    .ok (D.encodeDssSignature r s)

/-- Only the `ValueError` of `raw_to_der` is turned into a verdict. -/
def verifySignatureRaw (publicKey : PK) (message rawSignature : Bytes) : Except Err Bool :=
  match rawToDer D rawSignature with
  | .ok derSignature => verifySignature E publicKey message derSignature
  | .error (.valueError _) => .ok false
  | .error e => .error e

/-! ## Keys -/

def serializePublicKey (publicKey : PK) : Bytes := E.publicBytes publicKey

def deserializePublicKey (publicKeyBytes : Bytes) : Except Err PK :=
  E.loadPemPublicKey publicKeyBytes

structure RootCA (SK PK : Type) where
  privateKey : SK
  publicKey : PK

/-- `RootCA()` with the generated private key. -/
def RootCA.init (privateKey : SK) : RootCA SK PK := ⟨privateKey, E.publicKey privateKey⟩

structure SoftwareKeys (SK PK : Type) where
  privateKey : SK
  publicKey : PK

/-- `SoftwareKeys()` with the generated private key. -/
def SoftwareKeys.init (privateKey : SK) : SoftwareKeys SK PK := ⟨privateKey, E.publicKey privateKey⟩

theorem verifySignature_eq_true {publicKey : PK} {message signature : Bytes} :
    verifySignature E publicKey message signature = .ok true ↔
      E.verify publicKey signature message = .ok () := by
  unfold verifySignature
  split <;> simp_all

end BattLock
