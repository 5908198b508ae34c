import BattLock.Can.Codec
import BattLock.Can.Status
import BattLock.Crypto.Counters
import BattLock.Lib.Mealy

/-!
# The vehicle node

`can/simulation/vehicle_node.py`. What the node prints about a received frame is its `Report`. A
method that changes the node gives the node it leaves, also when it raises; clock readings are
arguments.
-/

namespace BattLock

open Python

/-- What the node says of a received frame. -/
inductive Report
  /-- `Received:` and the battery id. -/
  | received (batteryId : Str)
  /-- `FUZZING/MALFORMED ATTACK DETECTED: invalid status length`. -/
  | malformed
  /-- `FUZZING/MALFORMED ATTACK DETECTED: decoder error:`. -/
  | decoderError (e : Err)
  /-- `REPLAY ATTACK DETECTED`. -/
  | replay
  /-- `INJECTION ATTACK DETECTED`. -/
  | injection
  /-- `EVASION ATTACK DETECTED: fault_flags raised`. -/
  | faultFlags
  /-- `EVASION ATTACK DETECTED: values near safety limits`. -/
  | nearLimits
  /-- `VALID:` and the status. -/
  | valid (status : BatteryStatus)
  /-- `SESSION HIJACK ATTACK DETECTED: replayed session ID`. -/
  | sessionHijack
  /-- `Session ID received:` and the session id. -/
  | sessionReceived (sessionId : Str)
  /-- Nothing: no handler for the identifier. -/
  | ignored
deriving DecidableEq

structure VehicleNode (PK : Type) where
  replay : ReplayProtection := {}
  /-- Used to verify battery certificates. -/
  rootCaPublicKey : Option PK := none
  /-- Stored after a certificate is received and decoded. -/
  storedCertificate : Option (Certificate Json) := none
  /-- The challenge sent to the battery, for the verification of the signature. -/
  challengeData : Option Bytes := none
  sessionId : Option Str := none
  sessionActive : Bool := false

namespace VehicleNode

variable {SK PK : Type} (E : Ecdsa SK PK)

/-- `VehicleNode(bus, root_ca_public_key)`. -/
def init (rootCaPublicKey : Option PK) : VehicleNode PK := { rootCaPublicKey }

def voltageWarn : ℚ := 95
def currentWarn : ℚ := 450
def temperatureWarn : ℚ := 140

/-! ## Telemetry and identity frames -/

/-- A measurement above one of the three limits. -/
def exceeds (status : BatteryStatus) (voltage current temperature : ℚ) : Bool :=
  status.voltage.val.gt voltage || status.current.val.gt current ||
    status.temperature.val.gt temperature

/-- The checks on a fresh status. -/
def checkContent (status : BatteryStatus) : Report :=
  if exceeds status 100 500 150 then .injection
  else if status.faultFlags.toNat &&& Fault.mask ≠ 0 then .faultFlags
  else if exceeds status voltageWarn currentWarn temperatureWarn then .nearLimits
  else .valid status

/-- `_handle_status`. -/
def handleStatus (self : VehicleNode PK) (message : CANMessage) : VehicleNode PK × Report :=
  if message.data.length ≠ 19 then (self, .malformed)
  else
    match decodeStatus message with
    | .error e => (self, .decoderError e)
    | .ok status =>
      let (replay, fresh) := self.replay.validate status.counter
      ({ self with replay }, if fresh then checkContent status else .replay)

/-- `_handle_session_id`. -/
def handleSessionId (self : VehicleNode PK) (message : CANMessage) :
    VehicleNode PK × Except Err Report :=
  match decode message.data with
  | .error e => (self, .error e)
  | .ok sessionId =>
    if self.sessionActive ∧ self.sessionId = some sessionId then (self, .ok .sessionHijack)
    else ({ self with sessionId := some sessionId, sessionActive := true },
      .ok (.sessionReceived sessionId))

def receive (self : VehicleNode PK) (message : CANMessage) :
    VehicleNode PK × Except Err Report :=
  if message.arbitrationId = 0x100 then
    (self, do
      let batteryId ← decodeBatteryId message
      return .received batteryId)
  else if message.arbitrationId = CanId.batteryStatus then
    let (self, report) := self.handleStatus message
    (self, .ok report)
  else if message.arbitrationId = CanId.sessionId then self.handleSessionId message
  else (self, .ok .ignored)

/-! ## Authentication -/

/-- Decode the certificate, store it, and verify it against the root key. -/
def receiveAndVerifyCertificate [Interpreter] (self : VehicleNode PK) (message : CANMessage)
    (now : Datetime) : VehicleNode PK × Except Err Bool :=
  match decodeCertificate message with
  | .error e => (self, .error e)
  | .ok certificate =>
    ({ self with storedCertificate := some certificate },
      match self.rootCaPublicKey with
      | none => .ok false
      | some rootCaPublicKey => verifyCertificate E certificate rootCaPublicKey now)

/-- The bytes of a challenge: the nonce, followed by the decimal timestamp if there is one. -/
def challengeBytes (nonce : Bytes) : Option Int → Bytes
  | some timestamp => nonce ++ encodeChars (strInt timestamp)
  | none => nonce

def sendNonce (self : VehicleNode PK) (nonce : Bytes) (timestamp : Option Int) :
    VehicleNode PK × CANMessage :=
  let challengeData := challengeBytes nonce timestamp
  ({ self with challengeData := some challengeData }, encodeNonce challengeData)

/-- Verify a signature over the stored challenge under the stored certificate's key. -/
def receiveAndVerifySignature (self : VehicleNode PK) (message : CANMessage) : Except Err Bool :=
  match self.storedCertificate, self.challengeData with
  | some certificate, some challengeData => do
    let publicKey ← deserializePublicKey E certificate.publicKey
    verifySignature E publicKey challengeData (decodeSignature message)
  | _, _ => .ok false

def sendAuthRequest (_ : VehicleNode PK) : CANMessage := encodeAuthRequest

def sendSessionId (_ : VehicleNode PK) (session : Session) : Except Err CANMessage :=
  encodeSessionId session

/-! ## Runs -/

/-- A call of one of the node's methods. -/
inductive Call
  | receive (message : CANMessage)
  | receiveAndVerifyCertificate (message : CANMessage) (now : Datetime)
  | sendNonce (nonce : Bytes) (timestamp : Option Int)
  | receiveAndVerifySignature (message : CANMessage)
deriving DecidableEq

/-- What a call returns or raises. -/
inductive Outcome
  | report (r : Except Err Report)
  | verdict (r : Except Err Bool)
  | sent (message : CANMessage)
deriving DecidableEq

/-- The node under calls of its methods. -/
def machine [Interpreter] : Mealy (VehicleNode PK) Call Outcome where
  step self
    | .receive message => let (self, r) := self.receive message; (self, .report r)
    | .receiveAndVerifyCertificate message now =>
      let (self, r) := self.receiveAndVerifyCertificate E message now
      (self, .verdict r)
    | .sendNonce nonce timestamp =>
      let (self, m) := self.sendNonce nonce timestamp
      (self, .sent m)
    | .receiveAndVerifySignature message =>
      (self, .verdict (self.receiveAndVerifySignature E message))

/-- The node under received frames alone. -/
def receiver : Mealy (VehicleNode PK) CANMessage (Except Err Report) where
  step := receive

end VehicleNode

end BattLock
