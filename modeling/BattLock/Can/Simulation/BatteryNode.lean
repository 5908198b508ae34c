import BattLock.Can.Codec
import BattLock.Can.Status
import BattLock.Crypto.Counters
import BattLock.Lib.Mealy

/-!
# The battery node

`can/simulation/battery_node.py`. The measurements it sends are constants.
-/

namespace BattLock

open Python

structure BatteryNode (π : Type) where
  battery : Battery π
  counter : MessageCounter := {}
  /-- The challenge received from the vehicle, to be signed. -/
  storedChallengeData : Option Bytes := none

namespace BatteryNode

variable {π PK : Type} [KeyProvider π PK]

/-- 51.2, 12.4 and 30.0 with 85 % charge, 98 % health and no fault. -/
def status (counter : Int) : BatteryStatus where
  counter := counter
  voltage := .ofBits 0x404999999999999A
  current := .ofBits 0x4028CCCCCCCCCCCD
  temperature := .ofBits 0x403E000000000000
  soc := 85
  soh := 98
  faultFlags := 0

/-- The counter increases with every message. -/
def sendStatus (self : BatteryNode π) : BatteryNode π × Except Err CANMessage :=
  let (counter, value) := self.counter.next
  ({ self with counter }, encodeStatus (status value))

def receiveNonce (self : BatteryNode π) (message : CANMessage) : BatteryNode π × Bytes :=
  let challengeData := decodeNonce message
  ({ self with storedChallengeData := some challengeData }, challengeData)

/-- Sign the stored challenge with the battery's key. -/
def signAndRespond (self : BatteryNode π) (entropy : Nat) : Except Err CANMessage :=
  match self.storedChallengeData with
  | none =>
    .error (.runtimeError ("BatteryNode.sign_and_respond(): no challenge data stored. " ++
      "Call receive_nonce() first."))
  | some challengeData => do
    let signature ← self.battery.sign challengeData entropy
    return encodeSignature signature

def receiveSessionId (_ : BatteryNode π) (message : CANMessage) : Except Err Str :=
  decodeSessionId message

def sendCertificate (_ : BatteryNode π) (certificate : Certificate Str) : CANMessage :=
  encodeCertificate certificate

/-- The node under calls of `send_status`. -/
def sender : Mealy (BatteryNode π) Unit (Except Err CANMessage) where
  step self _ := self.sendStatus

/-- The results of `n` calls of `send_status`. -/
def sends (self : BatteryNode π) (n : Nat) : List (Except Err CANMessage) :=
  (sender.log self (List.replicate n ())).map Prod.snd

end BatteryNode

end BattLock
