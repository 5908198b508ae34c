import BattLock.Attacks.CertificateTampering
import BattLock.Attacks.Delay
import BattLock.Attacks.Frames
import BattLock.Integration.VerifyFrames

/-!
# The rows of the Python attacks

`simulink/generate_extra_modes.py`: six attacks are run against the nodes of `can/simulation`, and
each gives rows in the columns of Simulink's table, under a mode of its own. Keys, random values and
clock readings are arguments. What a node answers is dropped, but what it raises ends the generation
before anything is written.
-/

namespace BattLock.ExtraModes

open Python

structure Row where
  mode : Int
  time : PyFloat
  nonce : Int
  signature : Int
  counter : Int
  voltage : PyFloat
  modelState : Int
  modelAuth : Int
  modelReplay : Int
  modelInjection : Int
  modelSoc : Int
deriving DecidableEq

/-- What `float` makes of the cells once the row is written and read: of an integer the number that
is its decimal form, of a `float` the same `float`. -/
def Row.cells (row : Row) : FrameRow where
  mode := .ok (Ieee.ofInt row.mode)
  time := .ok row.time
  nonce := .ok (Ieee.ofInt row.nonce)
  signature := .ok (Ieee.ofInt row.signature)
  counter := .ok (Ieee.ofInt row.counter)
  voltage := .ok row.voltage
  modelAuth := .ok (Ieee.ofInt row.modelAuth)
  modelReplay := .ok (Ieee.ofInt row.modelReplay)
  modelInjection := .ok (Ieee.ofInt row.modelInjection)
  modelSoc := .ok (Ieee.ofInt row.modelSoc)

/-! The times of the rows, as rounded: 0.0, 0.05, 0.1, 0.15 and 0.2. -/

def time00 : PyFloat := .ofBits 0
def time05 : PyFloat := .ofBits 0x3FA999999999999A
def time10 : PyFloat := .ofBits 0x3FB999999999999A
def time15 : PyFloat := .ofBits 0x3FC3333333333333
def time20 : PyFloat := .ofBits 0x3FC999999999999A

/-- `_status_to_row`. -/
def statusToRow (mode : Int) (time : PyFloat) (nonce signature : Int) (status : BatteryStatus)
    (modelState modelAuth modelReplay modelInjection modelSoc : Int) : Row :=
  { mode, time, nonce, signature, counter := status.counter, voltage := status.voltage,
    modelState, modelAuth, modelReplay, modelInjection, modelSoc }

/-- A row that is written out, with 0 for the nonce, the signature, the counter and the voltage. -/
def plainRow (mode : Int) (time : PyFloat)
    (modelState modelAuth modelReplay modelInjection modelSoc : Int) : Row :=
  { mode, time, nonce := 0, signature := 0, counter := 0, voltage := .ofBits 0,
    modelState, modelAuth, modelReplay, modelInjection, modelSoc }

/-- What `_battery_and_cert` generates: the keys of the battery and of the Root CA, and the
randomness of the certificate's signature. -/
structure Keys (SK : Type) where
  battery : SK
  root : SK
  entropy : Nat

/-- `BatteryNode(battery, bus)` with an identity in the place of a battery: the node has nothing to
sign with. -/
def batteryNode (battery : BatteryIdentity) : BatteryNode Unit :=
  { battery := { identity := battery, keys := ⟨()⟩ } }

section
variable {SK PK : Type} (E : Ecdsa SK PK)

/-- `_battery_and_cert`. -/
def batteryAndCert (keys : Keys SK) :
    Except Err (BatteryIdentity × SK × PK × RootCA SK PK × Certificate Str) := do
  let batteryPublicKey := E.publicKey keys.battery
  let rootCa := RootCA.init E keys.root
  let battery : BatteryIdentity :=
    ⟨Str.ofString "BAT001", Str.ofString "SN001", Str.ofString "TESLA"⟩
  let certificate ← createCertificate E rootCa (Str.ofString "BAT001") (Str.ofString "TESLA")
    (serializePublicKey E batteryPublicKey) (Str.ofString "2026-06-01")
    (Str.ofString "2031-06-01") keys.entropy
  return (battery, keys.battery, batteryPublicKey, rootCa, certificate)

/-- A valid status, then the same with 97.0 for the voltage and 480.0 for the current. -/
def mode6Mitm (keys : Keys SK) : Except Err (List Row) := do
  let (battery, _) ← batteryAndCert E keys
  let valid ← (batteryNode battery).sendStatus.2
  let _ ← ((VehicleNode.init none : VehicleNode PK).receive valid).2
  let status ← decodeStatus valid
  let mitm := MitMAttack.intercept {} valid
  let tampered ← mitm.modify (some (.ofBits 0x4058400000000000))
    (some (.ofBits 0x407E000000000000)) none none none none
  let tamperedStatus ← decodeStatus tampered
  return [statusToRow 6 time00 0 0 status 5 1 0 0 85,
    statusToRow 6 time10 0 0 tamperedStatus 5 1 0 1 0]

/-- The loop over the released messages: the vehicle's replay protection is asked once more after
the vehicle has received the message. -/
def delayRows (vehicle : VehicleNode PK) : List (PyFloat × CANMessage) → Except Err (List Row)
  | [] => .ok []
  | (t, delayed) :: messages => do
    let received := vehicle.receive delayed
    let _ ← received.2
    let status ← decodeStatus delayed
    let validated := received.1.replay.validate status.counter
    let replay : Int := if validated.2 then 0 else 1
    let row := statusToRow 7 t 0 0 status 5 1 replay 0 (if replay = 0 then 85 else 0)
    let rows ← delayRows { received.1 with replay := validated.1 } messages
    return row :: rows

/-- Two statuses, released in reverse. -/
def mode7Delay (keys : Keys SK) : Except Err (List Row) := do
  let (battery, _) ← batteryAndCert E keys
  let first := (batteryNode battery).sendStatus
  let m1 ← first.2
  let m2 ← first.1.sendStatus.2
  let delay := (DelayAttack.intercept {} m1).intercept m2
  delayRows (VehicleNode.init none : VehicleNode PK)
    ([time00, time10].zip (delay.releaseAll true false).2)

/-- The loop over the random frames. -/
def fuzzRows (vehicle : VehicleNode PK) :
    List (PyFloat × CANMessage) → Except Err (VehicleNode PK × List Row)
  | [] => .ok (vehicle, [])
  | (t, frame) :: frames => do
    let received := vehicle.receive frame
    let _ ← received.2
    let rest ← fuzzRows received.1 frames
    return (rest.1, plainRow 8 t 0 0 0 0 0 :: rest.2)

/-- Three random frames, then a corrupted status. -/
def mode8Fuzzing (keys : Keys SK) (draws : Fin 3 → FuzzingAttack.Draw)
    (operation : FuzzingAttack.Operation) : Except Err (List Row) := do
  let (battery, _) ← batteryAndCert E keys
  let flooded ← fuzzRows (VehicleNode.init none : VehicleNode PK)
    ([time00, time05, time10].zip (FuzzingAttack.flood (List.ofFn draws)))
  let valid ← (batteryNode battery).sendStatus.2
  let corrupted := FuzzingAttack.corruptStatusFrame valid operation
  let _ ← (flooded.1.receive corrupted).2
  return flooded.2 ++ [plainRow 8 time15 5 0 0 1 0]

/-- What a session takes: the clock when the certificate is verified, the nonce, the randomness of
its signature and the generated session id. -/
structure Handshake where
  now : Datetime
  nonce : Bytes
  signing : Nat
  sessionId : Str

/-- A session is made, and its SESSION_ID frame is sent again. -/
def mode9SessionHijack [Interpreter] (keys : Keys SK) (handshake : Handshake) :
    Except Err (List Row) := do
  let (battery, priv, _, rootCa, cert) ← batteryAndCert E keys
  let node := batteryNode battery
  let vehicle := VehicleNode.init (some rootCa.publicKey)
  let verified := vehicle.receiveAndVerifyCertificate E (node.sendCertificate cert) handshake.now
  let _ ← verified.2
  let vehicle := (verified.1.sendNonce handshake.nonce none).1
  let node := (node.receiveNonce ⟨0x101, handshake.nonce⟩).1
  let sig := signMessage E priv handshake.nonce handshake.signing
  let _ ← vehicle.receiveAndVerifySignature E ⟨0x102, sig⟩
  let session := createSession battery.batteryId handshake.sessionId
  let sessionMsg ← vehicle.sendSessionId session
  let _ ← node.receiveSessionId sessionMsg
  let captured := SessionHijackAttack.capture {} sessionMsg
  let _ ← captured.2
  let replayed ← captured.1.replay
  let _ ← (vehicle.receive replayed).2
  return [plainRow 9 time00 5 1 0 0 85, plainRow 9 time10 5 1 1 0 0]

/-- A status of 99.0, 495.0 and 148.5, then one with a fault flag. -/
def mode10Evasion (keys : Keys SK) : Except Err (List Row) := do
  let _ ← batteryAndCert E keys
  let vehicle : VehicleNode PK := { VehicleNode.init none with replay := ⟨0⟩ }
  let msg1 ← EvasionAttack.injectEvasiveStatus (.ofBits 0x4058C00000000000)
    (.ofBits 0x407EF00000000000) (.ofBits 0x4062900000000000) 1
  let received := vehicle.receive msg1
  let _ ← received.2
  let status1 ← decodeStatus msg1
  let msg2 ← EvasionAttack.injectFaultFlagEvasion 0x01 2
  let _ ← (received.1.receive msg2).2
  let status2 ← decodeStatus msg2
  return [statusToRow 10 time00 0 0 status1 5 1 0 1 0,
    statusToRow 10 time10 0 0 status2 5 1 0 1 0]

/-- What the forged certificates take: two clock readings for the expired one, the rogue Root CA's
key, and the randomness of the two signatures. -/
structure Forging (SK : Type) where
  utcnow : Datetime
  utcnow' : Datetime
  rogueKey : SK
  expiredEntropy : Nat
  rogueEntropy : Nat

/-- An expired certificate, one of a rogue Root CA, and the valid one with another battery id. -/
def forgedCertificates (rootCa : RootCA SK PK) (pubBytes : Bytes) (validCert : Certificate Str)
    (forging : Forging SK) : Except Err (List (Certificate Str)) := do
  let expired ← CertificateTamperingAttack.createExpiredCertificate E rootCa
    (Str.ofString "BAT001") (Str.ofString "TESLA") pubBytes forging.utcnow forging.utcnow'
    forging.expiredEntropy
  let rogue ← CertificateTamperingAttack.createSelfSignedCertificate E forging.rogueKey
    (Str.ofString "BAT001") (Str.ofString "TESLA") pubBytes forging.rogueEntropy
  let tampered := CertificateTamperingAttack.Change.apply validCert
    ⟨.batteryId, Str.ofString "BAT_EVIL"⟩
  return [expired, rogue, tampered]

/-- The loop over the forged certificates, each with its row's time and the clock readings of its
two verifications. -/
def certificateRows [Interpreter] (rootKey : PK) (node : BatteryNode Unit)
    (vehicle : VehicleNode PK) :
    List (PyFloat × (Datetime × Datetime) × Certificate Str) → Except Err (List Row)
  | [] => .ok []
  | (t, (now, now'), cert) :: certs => do
    let ok ← verifyCertificate E cert rootKey now
    let received := vehicle.receiveAndVerifyCertificate E (node.sendCertificate cert) now'
    let _ ← received.2
    let rows ← certificateRows rootKey node received.1 certs
    return plainRow 11 t 2 (if ok then 1 else 0) 0 0 0 :: rows

def mode11CertificateTampering [Interpreter] (keys : Keys SK) (forging : Forging SK)
    (nows : Fin 3 → Datetime × Datetime) : Except Err (List Row) := do
  let (battery, _, pub, rootCa, validCert) ← batteryAndCert E keys
  let certs ← forgedCertificates E rootCa (serializePublicKey E pub) validCert forging
  certificateRows E rootCa.publicKey (batteryNode battery)
    (VehicleNode.init (some rootCa.publicKey))
    ([time00, time10, time20].zip ((List.ofFn nows).zip certs))

/-- What a generation takes, in all. -/
structure Supply (SK : Type) where
  mitmKeys : Keys SK
  delayKeys : Keys SK
  fuzzingKeys : Keys SK
  hijackKeys : Keys SK
  evasionKeys : Keys SK
  tamperingKeys : Keys SK
  draws : Fin 3 → FuzzingAttack.Draw
  operation : FuzzingAttack.Operation
  handshake : Handshake
  forging : Forging SK
  nows : Fin 3 → Datetime × Datetime

/-- The rows of the six modes, one after the other. -/
def generateExtraModes [Interpreter] (supply : Supply SK) : Except Err (List Row) := do
  let mitm ← mode6Mitm E supply.mitmKeys
  let delay ← mode7Delay E supply.delayKeys
  let fuzzing ← mode8Fuzzing E supply.fuzzingKeys supply.draws supply.operation
  let hijack ← mode9SessionHijack E supply.hijackKeys supply.handshake
  let evasion ← mode10Evasion E supply.evasionKeys
  let tampering ← mode11CertificateTampering E supply.tamperingKeys supply.forging supply.nows
  return mitm ++ delay ++ fuzzing ++ hijack ++ evasion ++ tampering

end

end BattLock.ExtraModes
