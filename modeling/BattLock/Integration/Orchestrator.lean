import BattLock.Can.Simulation.BatteryNode
import BattLock.Can.Simulation.VehicleNode
import BattLock.Can.Transport
import BattLock.Lib.Prog
import BattLock.Protocol.SessionManager
import BattLock.Protocol.StateMachine

/-!
# The orchestrator

`BattLockOrchestrator.run` of `integration/orchestrator.py`, one definition for each group of its
phases. Generated keys, random values and clock readings come from the run's environment
(`RunEnv`), together with an adversary that rewrites what is on the bus before each `receive`.
Beside its effects a run records what happens in it, in order (`Event`). Logging, metrics and the
final report have no part in it, except that logging a missing frame raises.
-/

namespace BattLock

open Python Transport

/-- The state that outlives a run. -/
structure Orchestrator where
  sessionManager : SessionManager := {}
  stateMachine : BattLockStateMachine := {}
deriving DecidableEq

/-- The `receive` calls of a run. -/
inductive Hop
  | authRequest
  | certificate
  | challenge
  | signature
  | session
deriving DecidableEq

structure RunEnv (SK : Type) where
  caKey : SK
  batteryKey : SK
  certificateEntropy : Nat
  signatureEntropy : Nat
  /-- The readings of `datetime.now()` for the two dates and in the expiry check. -/
  issueTime : Datetime
  expiryTime : Datetime
  verifyTime : Datetime
  nonce : Bytes
  timestamp : Int
  sessionId : Str
  /-- What the queue of the bus is turned into before a `receive`. -/
  adversary : Hop → List CANMessage → List CANMessage

/-- What happens in a run. -/
inductive Event
  | delivered (hop : Hop) (message : Option CANMessage)
  | certificateCheck (message : CANMessage) (r : Except Err Bool)
  | challengeSent (message : CANMessage)
  | signatureCheck (message : CANMessage) (r : Except Err Bool)
  | changed (orchestrator : Orchestrator)
deriving DecidableEq

/-- How a run ends before its last statement. -/
inductive Exit
  | returned
  | raised (e : Err)
deriving DecidableEq

variable {SK PK : Type} (E : Ecdsa SK PK)

/-- The state of a run: the orchestrator, the nodes and the bus it made, and what happened. -/
structure RunState where
  orchestrator : Orchestrator
  vehicle : VehicleNode PK
  batteryNode : BatteryNode (SoftwareProvider E)
  bus : CANBus
  events : List Event

namespace Orchestrator

variable {E} (env : RunEnv SK)

abbrev Run (E : Ecdsa SK PK) (α : Type) := Prog (RunState E) Exit α

/-- A computation that may raise. -/
def call {α : Type} (x : Except Err α) : Run E α := Prog.lift (x.mapError .raised)

/-- `return` unless the condition holds. -/
def abortUnless (b : Bool) : Run E Unit := if b then pure () else Prog.stop .returned

/-- `_transition`, and `return` if it was not allowed. -/
def transition (transitionFn : BattLockStateMachine → BattLockStateMachine × Bool) :
    Run E Unit := fun s =>
  let (stateMachine, result) := transitionFn s.orchestrator.stateMachine
  if result then
    let orchestrator := { s.orchestrator with stateMachine }
    ({ s with orchestrator, events := s.events ++ [.changed orchestrator] }, .ok ())
  else (s, .error .returned)

def send (message : CANMessage) : Run E Unit := fun s =>
  ({ s with bus := s.bus.send message }, .ok ())

/-- `bus.receive()`, after the adversary. -/
def receive (hop : Hop) : Run E (Option CANMessage) := fun s =>
  let (bus, message) := CANBus.receive { s.bus with queue := env.adversary hop s.bus.queue }
  ({ s with bus, events := s.events ++ [.delivered hop message] }, .ok message)

/-- `log_can_message`, which needs a frame. -/
def logCanMessage : Option CANMessage → Run E CANMessage
  | some message => pure message
  | none => Prog.stop (.raised .attributeError)

/-! ## The phases -/

/-- The nodes a run starts with (phases 2, 3 and 5). -/
def startup (self : Orchestrator) : RunState E where
  orchestrator := self
  vehicle := VehicleNode.init (some (RootCA.init E env.caKey).publicKey)
  batteryNode := {
    battery := {
      identity := ⟨Str.ofString "BAT001", Str.ofString "SN0001", Str.ofString "BATTLOCK"⟩
      keys := ⟨⟨SoftwareKeys.init E env.batteryKey⟩⟩ } }
  bus := {}
  events := []

/-- Phase 4. -/
def issueCertificate : Run E (Certificate Str) := do
  let s ← Prog.get
  let batteryKey ← call s.batteryNode.battery.getPublicKey
  let expiry ← call (env.expiryTime.addDays 365)
  call (createCertificate E (RootCA.init E env.caKey) (Str.ofString "BAT001")
    (Str.ofString "BATTLOCK") (serializePublicKey E batteryKey) env.issueTime.strftime
    expiry.strftime env.certificateEntropy)

/-- Phases 4, 6 and 7: the request and the certificate cross the bus. -/
def certificateExchange : Run E CANMessage := do
  let certificate ← issueCertificate env
  let s ← Prog.get
  send s.vehicle.sendAuthRequest
  let _ ← receive env .authRequest
  send (s.batteryNode.sendCertificate certificate)
  let receivedCertMsg ← receive env .certificate
  logCanMessage receivedCertMsg

/-- `vehicle.receive_and_verify_certificate`. -/
def checkCertificate [Interpreter] (message : CANMessage) : Run E Bool := fun s =>
  let (vehicle, r) := s.vehicle.receiveAndVerifyCertificate E message env.verifyTime
  ({ s with vehicle, events := s.events ++ [.certificateCheck message r] }, r.mapError .raised)

/-- Phase 8. -/
def certificateVerification [Interpreter] (receivedCertMsg : CANMessage) : Run E Unit := do
  transition BattLockStateMachine.helloReceived
  let certValid ← checkCertificate env receivedCertMsg
  abortUnless certValid
  transition BattLockStateMachine.certificateVerified

/-- `vehicle.send_nonce`, and the frame put on the bus. -/
def sendChallenge : Run E Unit := fun s =>
  let (vehicle, nonceMsg) := s.vehicle.sendNonce env.nonce (some env.timestamp)
  ({ s with vehicle, bus := s.bus.send nonceMsg, events := s.events ++ [.challengeSent nonceMsg] },
    .ok ())

/-- `battery_node.receive_nonce`, then `sign_and_respond`. -/
def signChallenge (receivedChallengeMsg : CANMessage) : Run E CANMessage := fun s =>
  let (batteryNode, _) := s.batteryNode.receiveNonce receivedChallengeMsg
  ({ s with batteryNode }, (batteryNode.signAndRespond env.signatureEntropy).mapError .raised)

/-- Phases 9 and 10: the challenge and the signature cross the bus. -/
def challengeResponse : Run E CANMessage := do
  sendChallenge env
  transition BattLockStateMachine.challengeSent
  let receivedChallengeMsg ← receive env .challenge
  let receivedChallengeMsg ← logCanMessage receivedChallengeMsg
  let sigMsg ← signChallenge env receivedChallengeMsg
  send sigMsg
  let receivedSigMsg ← receive env .signature
  logCanMessage receivedSigMsg

/-- `vehicle.receive_and_verify_signature`. -/
def checkSignature (message : CANMessage) : Run E Bool := fun s =>
  let r := s.vehicle.receiveAndVerifySignature E message
  ({ s with events := s.events ++ [.signatureCheck message r] }, r.mapError .raised)

/-- `session_manager.add_session`. -/
def addSession (session : Session) : Run E Unit := fun s =>
  let orchestrator := { s.orchestrator with
    sessionManager := s.orchestrator.sessionManager.addSession session.sessionId session.batteryId }
  ({ s with orchestrator, events := s.events ++ [.changed orchestrator] }, .ok ())

/-- The session establishment of phase 11. -/
def establishSession : Run E Unit := do
  transition BattLockStateMachine.authenticated
  let s ← Prog.get
  let session := createSession s.batteryNode.battery.identity.batteryId env.sessionId
  addSession session
  let sessionMsg ← call (s.vehicle.sendSessionId session)
  send sessionMsg
  let receivedSession ← receive env .session
  let receivedSession ← logCanMessage receivedSession
  let _ ← call (s.batteryNode.receiveSessionId receivedSession)
  transition BattLockStateMachine.sessionEstablished
  let s ← Prog.get
  call (if s.orchestrator.stateMachine.state = .activeSession then .ok ()
    else .error (.assertionError
      "ACCEPTANCE TEST FAILED: state machine did not reach ACTIVE_SESSION"))

/-- The handshake, phases 4 to 11. -/
def handshake [Interpreter] : Run E Unit := do
  let receivedCertMsg ← certificateExchange env
  certificateVerification env receivedCertMsg
  let receivedSigMsg ← challengeResponse env
  let result ← checkSignature receivedSigMsg
  if result then establishSession env else pure ()

/-- A call of `run`: the orchestrator it leaves, and what happened in it. -/
def run [Interpreter] (E : Ecdsa SK PK) (env : RunEnv SK) (self : Orchestrator) :
    Orchestrator × List Event :=
  let s := (handshake env (startup (E := E) env self)).1
  (s.orchestrator, s.events)

/-- The orchestrator under calls of `run`. -/
def machine [Interpreter] (E : Ecdsa SK PK) : Mealy Orchestrator (RunEnv SK) (List Event) where
  step self env := run E env self

end Orchestrator

end BattLock
