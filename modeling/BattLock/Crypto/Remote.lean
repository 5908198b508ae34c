import BattLock.Crypto.Proof.Commands
import BattLock.Lib.Runs

/-!
# The secure element behind its driver

The whole path from a call of the `ATECC608` object to the chip: the driver of
`crypto/keys/atecc608.py`, the serial line, the sketch `hardware/atecc_bridge.ino`, and a chip with
the key in slot 0 as its state (`remote`). `direct` says what it is for: the calls of the chip's
library, with the driver's exceptions where they fail.
-/

namespace BattLock

open Python Hardware

namespace Hardware.Bridge

/-- The command word of a line, as `loop` cuts it off. -/
def command (line : List Char) : List Char :=
  let line := trim line
  match line.idxOf? ' ' with
  | none => line
  | some sp => line.take sp

end Hardware.Bridge

/-- A chip with a state; the number is the randomness of a call. -/
structure SecureElement (κ : Type) where
  chip : κ → Nat → Chip
  /-- The state with the key pair that `createNewKeyPair` makes. -/
  newKeyPair : κ → Nat → κ

namespace SecureElement

variable {κ : Type} (element : SecureElement κ)

/-- The state after `createNewKeyPair`. -/
def createNewKeyPair (k : κ) (entropy : Nat) : κ :=
  if (element.chip k entropy).createNewKeyPair then element.newKeyPair k entropy else k

/-- The state after the bridge has handled a line. -/
def handled (k : κ) (entropy : Nat) (line : List Char) : κ :=
  if Bridge.command line = "GENKEY".toList then element.createNewKeyPair k entropy else k

/-- The state after a call of the driver that sends a line; without a port nothing is sent. -/
def asked (self : SerialATECC608) (k : κ) (entropy : Nat) (line : List Char) : κ :=
  if self.connected && self.ser.isSome then element.handled k entropy line else k

end SecureElement

namespace Remote

open SerialATECC608 (signRequest)

inductive Call
  | sign (data : Bytes)
  | getPublicKey
  | genkey
  /-- The query of `provisioning/cross_compat_test.py`. -/
  | verify (msg : Vector UInt8 32) (sig pub : Vector UInt8 64)

def Call.request : Call → List Char
  | sign data => signRequest data
  | getPublicKey => "PUBKEY".toList
  | genkey => "GENKEY".toList
  | verify msg sig pub => verifyRequest msg.toList sig.toList pub.toList

/-- What a call returns or raises. -/
inductive Answer (PK : Type)
  | signature (r : Except Err Bytes)
  | key (r : Except Err PK)
  | done (r : Except Err Unit)
  | reply (r : Except Err (List Char))

variable {κ PK : Type} (element : SecureElement κ) (fromEncodedPoint : Bytes → Except Err PK)

/-- The driver with the chip behind it. The first number is the randomness of the chip, the second
how many characters arrive before the read ends. -/
def remote : Mealy (SerialATECC608 × κ) (Call × Nat × Nat) (Answer PK) where
  step
    | (self, k), (call, entropy, arriving) =>
      let env : Exchange := ⟨element.chip k entropy, arriving⟩
      let k' := element.asked self k entropy call.request
      match call with
      | .sign data => let (self, r) := self.sign data env; ((self, k'), .signature r)
      | .getPublicKey =>
        let (self, r) := self.getPublicKey fromEncodedPoint env
        ((self, k'), .key r)
      | .genkey => let (self, r) := self.genkey env; ((self, k'), .done r)
      | .verify msg sig pub =>
        let (self, r) := self.query (verifyRequest msg.toList sig.toList pub.toList) env
        ((self, k'), .reply r)

/-- The calls on the chip itself. -/
def direct : Mealy κ (Call × Nat) (Answer PK) where
  step k
    | (.sign data, entropy) =>
      (k, .signature (
        if data.length ≠ 32 then .error (.valueError "ATECC608.sign: message must be 32 bytes")
        else
          match (element.chip k entropy).createSignature data with
          | none => .error (.runtimeError "sign failed: ERR:createSignature failed")
          | some signature => .ok signature.toList))
    | (.getPublicKey, entropy) =>
      (k, .key (
        match (element.chip k entropy).generatePublicKey with
        | none => .error (.runtimeError "get_public_key failed: ERR:generatePublicKey failed")
        | some key => ATECC608.rawPubkeyToKey fromEncodedPoint key.toList))
    | (.genkey, entropy) =>
      (element.createNewKeyPair k entropy, .done (
        if (element.chip k entropy).createNewKeyPair then .ok ()
        else .error (.runtimeError
          "genkey failed: ERR:createNewKeyPair failed (slot 0 locked/config?)")))
    | (.verify msg sig pub, entropy) =>
      (k, .reply (.ok (if (element.chip k entropy).verifySignature msg.toList sig.toList pub.toList
        then "VERIFY:1".toList else "VERIFY:0".toList)))

end Remote

end BattLock
