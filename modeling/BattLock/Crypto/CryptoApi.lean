import BattLock.Crypto.Battery

/-!
# The cryptographic API

The signature operations of `crypto/crypto_api.py`. A signature of 64 bytes is taken for a raw one
and any other for DER, when signing and when verifying. The key manager, which the module keeps as
a global, is an argument.
-/

namespace BattLock.CryptoApi

open Python

variable {π SK PK : Type} [KeyProvider π PK] (E : Ecdsa SK PK) (D : Dss)

/-- Sign a nonce; the signature is raw whatever the provider gives. -/
def signNonce (keyManager : KeyManager π) (nonce : Bytes) (entropy : Nat) : Except Err Bytes := do
  let sig ← keyManager.sign nonce entropy
  if sig.length = rawSigLen then return sig else derToRaw D sig

/-- Verify a raw or a DER signature under a serialized public key. -/
def verifySignature (nonce signature publicKeyBytes : Bytes) : Except Err Bool := do
  let publicKey ← deserializePublicKey E publicKeyBytes
  if signature.length = rawSigLen then verifySignatureRaw E D publicKey nonce signature
  else BattLock.verifySignature E publicKey nonce signature

end BattLock.CryptoApi
