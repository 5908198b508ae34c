import BattLock.Integration.Proof.Identity

/-!
# One run after another

The orchestrator keeps its state machine from run to run and never resets it. A run in which a
certificate frame is delivered leaves `DISCONNECTED` (`ends_run`), and from every other state a run
changes nothing (`run_blocked`). So a genuine handshake opens its session in exactly the sequences
of runs in which no earlier run got that far and the session frame arrives (`genuine_opens_iff`).

What the bus delivers in a run is computed from its environment alone (`certificateQueue`,
`challengeQueue`, `signatureQueue`, `sessionQueue`); `Genuine` and the two conditions are about
these frames, and a genuine handshake is an authentic one (`Genuine.authentic`).
-/

namespace BattLock.Orchestrator

open Python Prog Transport

variable {SK PK : Type} (E : Ecdsa SK PK) (env : RunEnv SK)

/-! ## What the bus delivers -/

/-- The certificate of phase 4. -/
def issued : Except Err (Certificate Str) := do
  let expiry ← env.expiryTime.addDays 365
  createCertificate E (RootCA.init E env.caKey) (Str.ofString "BAT001") (Str.ofString "BATTLOCK")
    (serializePublicKey E (E.publicKey env.batteryKey)) env.issueTime.strftime expiry.strftime
    env.certificateEntropy

/-- The queue at a `receive`, if the frame in front of the one before was answered by `reply`. -/
def answered (hop : Hop) (reply : CANMessage → CANMessage) : List CANMessage → List CANMessage
  | [] => []
  | message :: queue => env.adversary hop (queue ++ [reply message])

def certificateQueue (certificate : Certificate Str) : List CANMessage :=
  env.adversary .certificate
    ((env.adversary .authRequest [encodeAuthRequest]).tail ++ [encodeCertificate certificate])

def challengeQueue (certificate : Certificate Str) : List CANMessage :=
  answered env .challenge (fun _ => nonceMsg env) (certificateQueue env certificate)

/-- The frame of `sign_and_respond`. -/
def signatureMsg (challenge : CANMessage) : CANMessage :=
  encodeSignature (signMessage E env.batteryKey (decodeNonce challenge) env.signatureEntropy)

def signatureQueue (certificate : Certificate Str) : List CANMessage :=
  answered env .signature (signatureMsg E env) (challengeQueue env certificate)

def sessionQueue (certificate : Certificate Str) (sessionMsg : CANMessage) : List CANMessage :=
  answered env .session (fun _ => sessionMsg) (signatureQueue E env certificate)

/-! ## Handshakes -/

/-- A certificate frame is delivered to the vehicle. -/
def Begins : Prop :=
  ∃ certificate, issued E env = .ok certificate ∧ certificateQueue env certificate ≠ []

/-- A certificate that verifies under the root key, and a signature over the challenge that
verifies under its key. -/
def Verifies [Interpreter] (certMsg sigMsg : CANMessage) : Prop :=
  ∃ certificate publicKey, decodeCertificate certMsg = .ok certificate ∧
    verifyCertificate E certificate (E.publicKey env.caKey) env.verifyTime = .ok true ∧
    deserializePublicKey E certificate.publicKey = .ok publicKey ∧
    verifySignature E publicKey (VehicleNode.challengeBytes env.nonce (some env.timestamp))
      (decodeSignature sigMsg) = .ok true

/-- The certificate and the signature that are delivered verify. -/
def Genuine [Interpreter] : Prop :=
  ∃ certificate certMsg sigMsg, issued E env = .ok certificate ∧
    (certificateQueue env certificate).head? = some certMsg ∧
    (signatureQueue E env certificate).head? = some sigMsg ∧ Verifies E env certMsg sigMsg

/-- A frame with a text is delivered to the battery at the end. -/
def SessionArrives : Prop :=
  ∃ certificate sessionMsg message sessionId, issued E env = .ok certificate ∧
    encodeSessionId (createSession ownBatteryId env.sessionId) = .ok sessionMsg ∧
    (sessionQueue E env certificate sessionMsg).head? = some message ∧
    decodeSessionId message = .ok sessionId

/-- A run ends in `ACTIVE_SESSION` with a new session. -/
def Opens (before after : Orchestrator) : Prop :=
  after.stateMachine.state = .activeSession ∧ after.sessionManager.sessions =
    before.sessionManager.sessions ++ [(env.sessionId, ownBatteryId)]

/-- The orchestrator in a state, with the session of a first run. -/
def withSession (state : ConnectionState) : Orchestrator where
  sessionManager := ⟨[(env.sessionId, ownBatteryId)]⟩
  stateMachine := ⟨state⟩

/-- How a first run ends. -/
inductive Ends [Interpreter] (after : Orchestrator) : Prop
  | unbegun (hbegins : ¬ Begins E env) (heq : after = {})
  | stuck (hbegins : Begins E env) (hnot : ¬ (Genuine E env ∧ SessionArrives E env))
      (hstart : after.stateMachine.state ≠ .disconnected)
      (hactive : after.stateMachine.state ≠ .activeSession)
  | opened (hgenuine : Genuine E env) (harrives : SessionArrives E env)
      (heq : after = withSession env .activeSession)

abbrev EndsState [Interpreter] (s : RunState E) : Prop := Ends E env s.orchestrator

variable {E env} {certificate : Certificate Str} {certMsg sigMsg : CANMessage}
  {queue queue' : List CANMessage}

theorem Genuine.begins [Interpreter] (h : Genuine E env) : Begins E env := by
  obtain ⟨certificate, certMsg, -, hissued, hcert, -⟩ := h
  refine ⟨certificate, hissued, fun hnil => ?_⟩
  rw [hnil] at hcert
  cases hcert

/-- The frames are determined by the environment. -/
theorem Genuine.verifies [Interpreter] (h : Genuine E env)
    (hissued : issued E env = .ok certificate)
    (hcert : certificateQueue env certificate = certMsg :: queue) :
    ∃ sigMsg, (signatureQueue E env certificate).head? = some sigMsg ∧
      Verifies E env certMsg sigMsg := by
  obtain ⟨certificate', certMsg', sigMsg, hissued', hcert', hsig, hverifies⟩ := h
  obtain rfl : certificate = certificate' := Except.ok.inj (hissued.symm.trans hissued')
  rw [hcert] at hcert'
  obtain rfl : certMsg = certMsg' := Option.some.inj hcert'
  exact ⟨sigMsg, hsig, hverifies⟩

theorem SessionArrives.delivers (h : SessionArrives E env)
    (hissued : issued E env = .ok certificate)
    (hsig : signatureQueue E env certificate = sigMsg :: queue) {sessionMsg : CANMessage}
    (hsession : encodeSessionId (createSession ownBatteryId env.sessionId) = .ok sessionMsg) :
    ∃ message sessionId,
      (env.adversary .session (queue ++ [sessionMsg])).head? = some message ∧
        decodeSessionId message = .ok sessionId := by
  obtain ⟨certificate', sessionMsg', message, sessionId, hissued', hsession', hmessage, hid⟩ := h
  obtain rfl : certificate = certificate' := Except.ok.inj (hissued.symm.trans hissued')
  obtain rfl : sessionMsg = sessionMsg' := Except.ok.inj (hsession.symm.trans hsession')
  rw [sessionQueue, hsig] at hmessage
  exact ⟨message, sessionId, hmessage, hid⟩

/-! ## The points of a first run -/

variable (E env)

/-- A point of a run, with the frames that are on the bus. -/
structure Here (o : Orchestrator) (F : VehicleNode PK → Prop) (queue : List CANMessage)
    (s : RunState E) : Prop where
  orchestrator : s.orchestrator = o
  vehicle : F s.vehicle
  battery : s.batteryNode.battery = (startup (E := E) env {}).batteryNode.battery
  queue : s.bus.queue = queue

/-- The orchestrator in a state, without a session. -/
def inState (state : ConnectionState) : Orchestrator := { stateMachine := ⟨state⟩ }

/-- The vehicle trusts the root key. -/
def Trusts (v : VehicleNode PK) : Prop := v.rootCaPublicKey = some (E.publicKey env.caKey)

/-- The vehicle holds the certificate that was delivered, and it verified. -/
def Holds [Interpreter] (certMsg : CANMessage) (v : VehicleNode PK) : Prop :=
  ∃ certificate, v.storedCertificate = some certificate ∧
    decodeCertificate certMsg = .ok certificate ∧
    verifyCertificate E certificate (E.publicKey env.caKey) env.verifyTime = .ok true

/-- The vehicle holds its challenge too. -/
def Challenges [Interpreter] (certMsg : CANMessage) (v : VehicleNode PK) : Prop :=
  Holds E env certMsg v ∧
    v.challengeData = some (VehicleNode.challengeBytes env.nonce (some env.timestamp))

variable {E env} {o : Orchestrator} {F : VehicleNode PK → Prop} {hop : Hop}
  {X : Exit → RunState E → Prop}

theorem here_call {α : Type} {x : Except Err α} : Triple (Here E env o F queue) (call x)
    (fun a s => x = .ok a ∧ Here E env o F queue s)
    (fun _ s => (∃ e, x = .error e) ∧ s.orchestrator = o) := by
  refine ⟨fun s hs => ?_⟩
  cases x with
  | ok a => exact ⟨rfl, hs⟩
  | error e => exact ⟨⟨e, rfl⟩, hs.orchestrator⟩

theorem here_get : Triple (Here E env o F queue) (Prog.get : Run E (RunState E))
    (fun s s' => s.batteryNode.battery = (startup (E := E) env {}).batteryNode.battery ∧
      s.orchestrator = o ∧ Here E env o F queue s') X :=
  Triple.get fun _ hs => ⟨hs.battery, hs.orchestrator, hs⟩

theorem here_send (m : CANMessage) : Triple (Here E env o F queue) (send m)
    (fun _ => Here E env o F (queue ++ [m])) X :=
  ⟨fun _ hs => ⟨hs.orchestrator, hs.vehicle, hs.battery, by rw [← hs.queue]; rfl⟩⟩

theorem here_receive : Triple (Here E env o F queue) (receive env hop)
    (fun m s => m = (env.adversary hop queue).head? ∧
      Here E env o F (env.adversary hop queue).tail s) X := by
  refine ⟨fun s hs => ?_⟩
  unfold receive CANBus.receive
  rw [hs.queue]
  cases hqueue : env.adversary hop queue with
  | nil => exact ⟨rfl, hs.orchestrator, hs.vehicle, hs.battery, rfl⟩
  | cons m queue => exact ⟨rfl, hs.orchestrator, hs.vehicle, hs.battery, rfl⟩

theorem here_logCanMessage {m : Option CANMessage} :
    Triple (fun s => m = queue.head? ∧ Here E env o F queue.tail s) (logCanMessage m)
      (fun m s => ∃ queue', queue = m :: queue' ∧ Here E env o F queue' s)
      (fun _ s => queue = [] ∧ s.orchestrator = o) := by
  refine Triple.assuming fun hm => ?_
  subst hm
  cases queue with
  | nil => exact Triple.stop fun _ hs => ⟨rfl, hs.orchestrator⟩
  | cons m queue => exact Triple.pure fun _ hs => ⟨queue, rfl, hs⟩

theorem here_transition {source target : ConnectionState}
    {fn : BattLockStateMachine → BattLockStateMachine × Bool}
    (hfn : ∀ m, fn m = m.advance source target) (ho : o.stateMachine = ⟨source⟩) :
    Triple (Here E env o F queue) (transition fn)
      (fun _ => Here E env { o with stateMachine := ⟨target⟩ } F queue) X := by
  refine ⟨fun s hs => ?_⟩
  have hstate : s.orchestrator.stateMachine.state = source := by rw [hs.orchestrator, ho]
  simp only [transition, hfn, BattLockStateMachine.advance, hstate, ↓reduceIte]
  exact ⟨by rw [← hs.orchestrator], hs.vehicle, hs.battery, hs.queue⟩

theorem here_sendChallenge [Interpreter] :
    Triple (Here E env o (Holds E env certMsg) queue) (sendChallenge env)
      (fun _ => Here E env o (Challenges E env certMsg) (queue ++ [nonceMsg env])) X :=
  ⟨fun _ hs => ⟨hs.orchestrator, ⟨hs.vehicle, rfl⟩, hs.battery, by rw [← hs.queue]; rfl⟩⟩

/-- The battery signs whatever is delivered as the challenge. -/
theorem here_signChallenge (m : CANMessage) :
    Triple (Here E env o F queue) (signChallenge env m)
      (fun sigMsg s => sigMsg = signatureMsg E env m ∧ Here E env o F queue s) X := by
  refine ⟨fun s hs => ?_⟩
  have hanswer : (s.batteryNode.receiveNonce m).1.signAndRespond env.signatureEntropy =
      .ok (signatureMsg E env m) := by
    simp only [BatteryNode.receiveNonce, BatteryNode.signAndRespond, hs.battery]
    rfl
  unfold signChallenge
  dsimp only
  rw [hanswer]
  exact ⟨rfl, hs.orchestrator, hs.vehicle, hs.battery, hs.queue⟩

theorem here_addSession {s : RunState E}
    (hs : s.batteryNode.battery = (startup (E := E) env {}).batteryNode.battery) :
    Triple (Here E env (inState .authenticated) F queue)
      (addSession (createSession s.batteryNode.battery.identity.batteryId env.sessionId))
      (fun _ => Here E env (withSession env .authenticated) F queue) X := by
  refine ⟨fun s' hs' => ⟨?_, hs'.vehicle, hs'.battery, hs'.queue⟩⟩
  dsimp only
  rw [hs'.orchestrator, hs]
  rfl

/-! ## The vehicle's checks -/

theorem accepted_of_verifies [Interpreter] {v : VehicleNode PK} (hroot : Trusts E env v)
    {c : Certificate Json} (hdecode : decodeCertificate certMsg = .ok c)
    (hverify : verifyCertificate E c (E.publicKey env.caKey) env.verifyTime = .ok true) :
    (v.receiveAndVerifyCertificate E certMsg env.verifyTime).2 = .ok true := by
  rw [Trusts] at hroot
  simp only [VehicleNode.receiveAndVerifyCertificate, hdecode, hroot, hverify]

theorem holds_of_accepted [Interpreter] {v : VehicleNode PK} (hroot : Trusts E env v)
    (h : (v.receiveAndVerifyCertificate E certMsg env.verifyTime).2 = .ok true) :
    Holds E env certMsg (v.receiveAndVerifyCertificate E certMsg env.verifyTime).1 := by
  rw [Trusts] at hroot
  unfold VehicleNode.receiveAndVerifyCertificate at h ⊢
  cases hdecode : decodeCertificate certMsg with
  | error e =>
    rw [hdecode] at h
    cases h
  | ok c =>
    simp only [hdecode, hroot] at h
    exact ⟨c, rfl, hdecode, h⟩

theorem receiveSignature_iff {v : VehicleNode PK} {c : Certificate Json}
    (hstored : v.storedCertificate = some c)
    (hchallenge : v.challengeData =
      some (VehicleNode.challengeBytes env.nonce (some env.timestamp))) :
    v.receiveAndVerifySignature E sigMsg = .ok true ↔
      ∃ publicKey, deserializePublicKey E c.publicKey = .ok publicKey ∧
        verifySignature E publicKey (VehicleNode.challengeBytes env.nonce (some env.timestamp))
          (decodeSignature sigMsg) = .ok true := by
  simp only [VehicleNode.receiveAndVerifySignature, hstored, hchallenge]
  exact bind_eq_ok

/-! ## The phases of a first run -/

/-- Phase 4: the certificate is issued, or the run ends. -/
theorem here_issueCertificate :
    Triple (Here E env o F queue) (issueCertificate env)
      (fun certificate s => issued E env = .ok certificate ∧ Here E env o F queue s)
      (fun _ s => (∃ e, issued E env = .error e) ∧ s.orchestrator = o) := by
  refine here_get.bind fun s => Triple.assuming fun hbattery => Triple.assuming fun _ => ?_
  have hkey : s.batteryNode.battery.getPublicKey = .ok (E.publicKey env.batteryKey) := by
    rw [hbattery]
    rfl
  refine (here_call.exits ?_).bind fun key => Triple.assuming fun hok => ?_
  · intro _ _ hs
    obtain ⟨⟨e, herror⟩, -⟩ := hs
    cases hkey.symm.trans herror
  obtain rfl : E.publicKey env.batteryKey = key := Except.ok.inj (hkey.symm.trans hok)
  refine (here_call.exits ?_).bind fun expiry => Triple.assuming fun hexpiry => ?_
  · intro _ _ hs
    obtain ⟨⟨e, herror⟩, ho⟩ := hs
    exact ⟨⟨e, by rw [issued, herror]; rfl⟩, ho⟩
  have hissued : issued E env = createCertificate E (RootCA.init E env.caKey)
      (Str.ofString "BAT001") (Str.ofString "BATTLOCK")
      (serializePublicKey E (E.publicKey env.batteryKey)) env.issueTime.strftime expiry.strftime
      env.certificateEntropy := by
    rw [issued, hexpiry]
    rfl
  rw [hissued]
  exact here_call

/-- Phases 4, 6 and 7: a certificate frame is delivered, or none is. -/
theorem here_certificateExchange :
    Triple (fun s => s = startup (E := E) env {}) (certificateExchange env)
      (fun certMsg s => ∃ certificate, issued E env = .ok certificate ∧ ∃ queue,
        certificateQueue env certificate = certMsg :: queue ∧
          Here E env {} (Trusts E env) queue s)
      (fun _ s => ¬ Begins E env ∧ s.orchestrator = {}) := by
  have hstart : ∀ s, s = startup (E := E) env {} → Here E env {} (Trusts E env) [] s := by
    intro s hs
    subst hs
    exact ⟨rfl, rfl, rfl, rfl⟩
  refine Triple.pre ?_ hstart
  refine (here_issueCertificate.exits ?_).bind fun certificate => Triple.assuming fun hissued => ?_
  · intro _ s hs
    obtain ⟨⟨e, herror⟩, ho⟩ := hs
    refine ⟨?_, ho⟩
    intro h
    obtain ⟨certificate, hissued, -⟩ := h
    rw [herror] at hissued
    cases hissued
  have hbegins : certificateQueue env certificate = [] → ¬ Begins E env := by
    intro hnil h
    obtain ⟨certificate', hissued', hne⟩ := h
    obtain rfl : certificate = certificate' := Except.ok.inj (hissued.symm.trans hissued')
    exact hne hnil
  refine here_get.bind fun s => Triple.assuming fun _ => Triple.assuming fun _ => ?_
  refine (here_send _).bind fun _ => here_receive.bind fun _ => Triple.assuming fun _ => ?_
  refine (here_send _).bind fun _ => here_receive.bind fun m => ?_
  exact here_logCanMessage.mono (fun _ hs => hs)
    (fun m s hs => ⟨certificate, hissued, hs⟩) (fun _ s hs => ⟨hbegins hs.1, hs.2⟩)

section
variable (hissued : issued E env = .ok certificate)
  (hcert : certificateQueue env certificate = certMsg :: queue)
include hissued hcert

theorem begins_of_queue : Begins E env :=
  ⟨certificate, hissued, fun hnil => List.cons_ne_nil _ _ (hcert.symm.trans hnil)⟩

/-- A run that ends between its first and its last transition. -/
theorem stuck_of_state [Interpreter] (state : ConnectionState)
    (hstate : state ≠ .disconnected ∧ state ≠ .activeSession)
    (hnot : ¬ (Genuine E env ∧ SessionArrives E env)) (s : RunState E)
    (hs : s.orchestrator.stateMachine = ⟨state⟩) : EndsState E env s := by
  refine .stuck (begins_of_queue hissued hcert) hnot ?_ ?_
  · rw [hs]
    exact hstate.1
  · rw [hs]
    exact hstate.2

theorem stuck_inState [Interpreter] {state : ConnectionState}
    (hstate : state ≠ .disconnected ∧ state ≠ .activeSession) (hnot : ¬ Genuine E env)
    {s : RunState E} (hs : s.orchestrator = inState state) : EndsState E env s :=
  stuck_of_state hissued hcert state hstate (fun h => hnot h.1) s (by rw [hs]; rfl)

theorem here_checkCertificate [Interpreter] :
    Triple (Here E env (inState .helloReceived) (Trusts E env) queue)
      (checkCertificate env certMsg)
      (fun b s => if b = true then
        Here E env (inState .helloReceived) (Holds E env certMsg) queue s else EndsState E env s)
      (fun _ => EndsState E env) := by
  refine ⟨fun s hs => ?_⟩
  have haccepted : Genuine E env →
      (s.vehicle.receiveAndVerifyCertificate E certMsg env.verifyTime).2 = .ok true := by
    intro h
    obtain ⟨-, -, c, publicKey, hdecode, hverify, -⟩ := h.verifies hissued hcert
    exact accepted_of_verifies hs.vehicle hdecode hverify
  have hholds : _ → Holds E env certMsg _ := holds_of_accepted hs.vehicle
  have hstuck {s' : RunState E} (hnot : ¬ Genuine E env)
      (hs' : s'.orchestrator = s.orchestrator) : EndsState E env s' :=
    stuck_inState hissued hcert (by decide) hnot (hs'.trans hs.orchestrator)
  unfold checkCertificate
  revert haccepted hholds
  rcases s.vehicle.receiveAndVerifyCertificate E certMsg env.verifyTime with ⟨vehicle, r⟩
  intro haccepted hholds
  cases r with
  | error e => exact hstuck (fun h => by cases haccepted h) rfl
  | ok b =>
    cases b with
    | false => exact hstuck (fun h => by cases haccepted h) rfl
    | true => exact ⟨hs.orchestrator, hholds rfl, hs.battery, hs.queue⟩

/-- Phase 8. -/
theorem here_certificateVerification [Interpreter] :
    Triple (Here E env {} (Trusts E env) queue) (certificateVerification env certMsg)
      (fun _ => Here E env (inState .certVerified) (Holds E env certMsg) queue)
      (fun _ => EndsState E env) :=
  (here_transition (fun _ => rfl) rfl).bind fun _ => (here_checkCertificate hissued hcert).bind
    fun _ => triple_abortUnless.bind fun _ => here_transition (fun _ => rfl) rfl

theorem not_genuine_of_nil [Interpreter] (hnil : signatureQueue E env certificate = []) :
    ¬ Genuine E env := by
  intro h
  obtain ⟨sigMsg, hsig, -⟩ := h.verifies hissued hcert
  rw [hnil] at hsig
  cases hsig

/-- Phases 9 and 10: a signature frame is delivered, or the run ends. -/
theorem here_challengeResponse [Interpreter] :
    Triple (Here E env (inState .certVerified) (Holds E env certMsg) queue)
      (challengeResponse env)
      (fun sigMsg s => ∃ queue', signatureQueue E env certificate = sigMsg :: queue' ∧
        Here E env (inState .challengeSent) (Challenges E env certMsg) queue' s)
      (fun _ => EndsState E env) := by
  have hstuck {s : RunState E} (hnil : signatureQueue E env certificate = [])
      (hs : s.orchestrator = inState .challengeSent) : EndsState E env s :=
    stuck_inState hissued hcert (by decide) (not_genuine_of_nil hissued hcert hnil) hs
  have hchallenge : challengeQueue env certificate =
      env.adversary .challenge (queue ++ [nonceMsg env]) := by
    rw [challengeQueue, hcert]
    rfl
  refine here_sendChallenge.bind fun _ => (here_transition (fun _ => rfl) rfl).bind fun _ => ?_
  refine here_receive.bind fun m => (here_logCanMessage.exits ?_).bind fun m =>
    Triple.exists_pre fun queue' => Triple.assuming fun hm => ?_
  · intro _ s hs
    obtain ⟨hnil, ho⟩ := hs
    refine hstuck ?_ ho
    rw [signatureQueue, hchallenge, hnil]
    rfl
  have hsignature : signatureQueue E env certificate =
      env.adversary .signature (queue' ++ [signatureMsg E env m]) := by
    rw [signatureQueue, hchallenge, hm]
    rfl
  refine (here_signChallenge m).bind fun sigMsg => Triple.assuming fun hsig => ?_
  subst hsig
  refine (here_send _).bind fun _ => here_receive.bind fun m => ?_
  rw [← hsignature]
  exact here_logCanMessage.exits fun _ s hs => hstuck hs.1 hs.2

/-- Phase 11 up to its verdict: the handshake is genuine, or the run ends. -/
theorem here_checkSignature [Interpreter]
    (hsig : signatureQueue E env certificate = sigMsg :: queue') :
    Triple (Here E env (inState .challengeSent) (Challenges E env certMsg) queue')
      (checkSignature sigMsg)
      (fun b s => if b = true then Genuine E env ∧
        Here E env (inState .challengeSent) (fun _ => True) queue' s else EndsState E env s)
      (fun _ => EndsState E env) := by
  refine ⟨fun s hs => ?_⟩
  obtain ⟨⟨c, hstored, hdecode, hverify⟩, hchallenge⟩ := hs.vehicle
  have hgenuine : Genuine E env ↔ s.vehicle.receiveAndVerifySignature E sigMsg = .ok true := by
    rw [receiveSignature_iff hstored hchallenge]
    constructor
    · intro h
      obtain ⟨sigMsg', hsig', c', publicKey, hdecode', -, hkey, hsigned⟩ := h.verifies hissued hcert
      rw [hsig] at hsig'
      obtain rfl : sigMsg = sigMsg' := Option.some.inj hsig'
      obtain rfl : c = c' := Except.ok.inj (hdecode.symm.trans hdecode')
      exact ⟨publicKey, hkey, hsigned⟩
    · intro h
      obtain ⟨publicKey, hkey, hsigned⟩ := h
      exact ⟨certificate, certMsg, sigMsg, hissued, by rw [hcert]; rfl, by rw [hsig]; rfl, c,
        publicKey, hdecode, hverify, hkey, hsigned⟩
  have hstuck {s' : RunState E} (hnot : ¬ Genuine E env)
      (hs' : s'.orchestrator = s.orchestrator) : EndsState E env s' :=
    stuck_inState hissued hcert (by decide) hnot (hs'.trans hs.orchestrator)
  unfold checkSignature
  cases hr : s.vehicle.receiveAndVerifySignature E sigMsg with
  | error e => exact hstuck (fun h => by cases hr.symm.trans (hgenuine.1 h)) rfl
  | ok b =>
    cases b with
    | false => exact hstuck (fun h => by cases hr.symm.trans (hgenuine.1 h)) rfl
    | true => exact ⟨hgenuine.2 hr, hs.orchestrator, trivial, hs.battery, hs.queue⟩

/-- The rest of phase 11: the session is opened, unless its frame is lost. -/
theorem here_establishSession [Interpreter]
    (hsig : signatureQueue E env certificate = sigMsg :: queue') (hgenuine : Genuine E env) :
    Triple (Here E env (inState .challengeSent) (fun _ => True) queue') (establishSession env)
      (fun _ => EndsState E env) (fun _ => EndsState E env) := by
  have hstuck : ¬ SessionArrives E env → ∀ s : RunState E,
      s.orchestrator = withSession env .authenticated → EndsState E env s := fun hnot s hs =>
    stuck_of_state hissued hcert .authenticated (by decide) (fun h => hnot h.2) s (by rw [hs]; rfl)
  refine (here_transition (fun _ => rfl) rfl).bind fun _ => here_get.bind fun s =>
    Triple.assuming fun hbattery => Triple.assuming fun _ =>
      (here_addSession hbattery).bind fun _ => ?_
  have hsession : s.vehicle.sendSessionId
      (createSession s.batteryNode.battery.identity.batteryId env.sessionId) =
        encodeSessionId (createSession ownBatteryId env.sessionId) := by
    rw [hbattery]
    rfl
  refine (here_call.exits ?_).bind fun sessionMsg => Triple.assuming fun hok => ?_
  · intro _ s' hs
    obtain ⟨⟨e, herror⟩, ho⟩ := hs
    refine hstuck ?_ s' ho
    intro h
    obtain ⟨-, sessionMsg, -, -, -, hok, -⟩ := h
    cases (hsession.symm.trans herror).symm.trans hok
  have harrives (h : SessionArrives E env) := h.delivers hissued hsig (hsession.symm.trans hok)
  refine (here_send _).bind fun _ => here_receive.bind fun m =>
    (here_logCanMessage.exits ?_).bind fun m => Triple.exists_pre fun queue'' =>
      Triple.assuming fun hm => ?_
  · intro _ s' hs
    obtain ⟨hnil, ho⟩ := hs
    refine hstuck (fun h => ?_) s' ho
    obtain ⟨message, sessionId, hmessage, -⟩ := harrives h
    rw [hnil] at hmessage
    cases hmessage
  refine (here_call.exits ?_).bind fun sessionId => Triple.assuming fun hid => ?_
  · intro _ s' hs
    obtain ⟨⟨e, herror⟩, ho⟩ := hs
    refine hstuck (fun h => ?_) s' ho
    obtain ⟨message, sessionId, hmessage, hid⟩ := harrives h
    rw [hm] at hmessage
    obtain rfl : m = message := Option.some.inj hmessage
    cases hid.symm.trans herror
  have hdelivered : SessionArrives E env :=
    ⟨certificate, sessionMsg, m, sessionId, hissued, hsession.symm.trans hok, by
      rw [sessionQueue, hsig, answered, hm]
      rfl, hid⟩
  have hopened : ∀ s', Here E env (withSession env .activeSession) (fun _ => True) queue'' s' →
      EndsState E env s' := fun s' hs => .opened hgenuine hdelivered hs.orchestrator
  refine (here_transition (fun _ => rfl) rfl).bind fun _ => here_get.bind fun s' =>
    Triple.assuming fun _ => Triple.assuming fun _ => ?_
  exact here_call.mono (fun _ hs => hs) (fun _ s hs => hopened s hs.2)
    (fun _ s hs => .opened hgenuine hdelivered hs.2)

end

/-! ## Runs -/

/-- **How a first run ends.** -/
theorem ends_run [Interpreter] (E : Ecdsa SK PK) (env : RunEnv SK) :
    Ends E env (run E env {}).1 := by
  have hhandshake : Triple (fun s => s = startup (E := E) env {}) (handshake env)
      (fun _ => EndsState E env) (fun _ => EndsState E env) := by
    refine (here_certificateExchange.exits fun _ s hs => .unbegun hs.1 hs.2).bind fun certMsg =>
      Triple.exists_pre fun certificate => Triple.assuming fun hissued =>
        Triple.exists_pre fun queue => Triple.assuming fun hcert => ?_
    refine (here_certificateVerification hissued hcert).bind fun _ =>
      (here_challengeResponse hissued hcert).bind fun sigMsg => Triple.exists_pre fun queue' =>
        Triple.assuming fun hsig => (here_checkSignature hissued hcert hsig).bind fun result => ?_
    cases result with
    | true => exact Triple.assuming fun hgenuine =>
        here_establishSession hissued hcert hsig hgenuine
    | false => exact Triple.pure fun _ hs => hs
  have h : EndsState E env (handshake env (startup (E := E) env {})).1 := hhandshake.final rfl
  simpa only [run] using h

theorem Genuine.authentic [Interpreter] (h : Genuine E env) (harrives : SessionArrives E env) :
    Authentic E env (run E env {}).2 := by
  have hopen : Open (run E env {}).1 := by
    cases ends_run E env with
    | unbegun hbegins _ => exact absurd h.begins hbegins
    | stuck _ hnot _ _ => exact absurd ⟨h, harrives⟩ hnot
    | opened _ _ hafter =>
      rw [hafter]
      exact .inr (.inr rfl)
  have hsound : Sound E env {} (run E env {}).1 (run E env {}).2 := sound_run {}
  rcases hsound.final with hafter | hquiet | hauthentic
  · rw [hafter] at hopen
    obtain ⟨r, hr, -⟩ := earned_new E hopen
    cases hr
  · obtain ⟨r, hr, -⟩ := earned_new E (hquiet.open hopen)
    cases hr
  · exact hauthentic

/-- The orchestrator is as it was. -/
def SameOrchestrator (s s' : RunState E) : Prop := s'.orchestrator = s.orchestrator

theorem keeps_certificateExchange :
    Keeps (SameOrchestrator (E := E)) (certificateExchange env) := by
  have hbind {α β : Type} {x : Run E α} {f : α → Run E β} (hx : Keeps SameOrchestrator x)
      (hf : ∀ a, Keeps SameOrchestrator (f a)) : Keeps SameOrchestrator (x >>= f) :=
    Keeps.bind (fun _ _ _ h h' => h'.trans h) hx hf
  have hget : Keeps SameOrchestrator (Prog.get : Run E (RunState E)) := ⟨fun _ => rfl⟩
  have hcall {α : Type} (x : Except Err α) : Keeps SameOrchestrator (call (E := E) x) :=
    ⟨fun _ => rfl⟩
  have hsend (m : CANMessage) : Keeps SameOrchestrator (send (E := E) m) := ⟨fun _ => rfl⟩
  have hreceive (hop : Hop) : Keeps SameOrchestrator (receive (E := E) env hop) := ⟨fun _ => rfl⟩
  have hlog (m : Option CANMessage) : Keeps SameOrchestrator (logCanMessage (E := E) m) :=
    ⟨fun _ => by cases m <;> rfl⟩
  have hissue : Keeps SameOrchestrator (issueCertificate (E := E) env) :=
    hbind hget fun _ => hbind (hcall _) fun _ => hbind (hcall _) fun _ => hcall _
  exact hbind hissue fun _ => hbind hget fun _ => hbind (hsend _) fun _ =>
    hbind (hreceive _) fun _ => hbind (hsend _) fun _ => hbind (hreceive _) hlog

/-- **A run from any other state** is refused at its first transition. -/
theorem run_blocked [Interpreter] {o₀ : Orchestrator} (h : o₀.stateMachine.state ≠ .disconnected) :
    (run E env o₀).1 = o₀ := by
  have hexchange : Triple (fun s : RunState E => s.orchestrator = o₀) (certificateExchange env)
      (fun _ s => s.orchestrator = o₀) (fun _ s => s.orchestrator = o₀) :=
    keeps_certificateExchange.triple fun _ _ hsame hs => hsame.trans hs
  have hrefused : Triple (fun s : RunState E => s.orchestrator = o₀)
      (transition BattLockStateMachine.helloReceived) (fun _ _ => False)
      (fun _ s => s.orchestrator = o₀) := by
    refine ⟨fun s hs => ?_⟩
    have hstate : s.orchestrator.stateMachine.state ≠ .disconnected := by rwa [hs]
    simp only [transition, BattLockStateMachine.helloReceived, BattLockStateMachine.advance,
      hstate, ↓reduceIte]
    exact hs
  have hhandshake : Triple (fun s : RunState E => s.orchestrator = o₀) (handshake env)
      (fun _ s => s.orchestrator = o₀) (fun _ s => s.orchestrator = o₀) :=
    hexchange.bind fun _ => (hrefused.bind fun _ => ⟨fun _ hs => hs.elim⟩ :
      Triple _ (certificateVerification env _) (fun _ _ => False) _).bind fun _ =>
        ⟨fun _ hs => hs.elim⟩
  have hfinal : (handshake env (startup (E := E) env o₀)).1.orchestrator = o₀ :=
    hhandshake.final rfl
  simpa only [run] using hfinal

/-- **What is left of a sequence of runs**: all as at the start, if no certificate was delivered in
any of them. -/
theorem run_cases [Interpreter] (E : Ecdsa SK PK) (envs : List (RunEnv SK)) :
    ((machine E).run {} envs = {} ∧ ∀ env ∈ envs, ¬ Begins E env) ∨
      (((machine E).run {} envs).stateMachine.state ≠ .disconnected ∧
        ∃ env ∈ envs, Begins E env) := by
  induction envs using List.reverseRecOn with
  | nil => exact .inl ⟨rfl, fun _ henv => absurd henv List.not_mem_nil⟩
  | append_singleton envs env ih =>
    have hrun : (machine E).run {} (envs ++ [env]) = (run E env ((machine E).run {} envs)).1 :=
      (machine E).run_append _ _ _
    rw [hrun]
    rcases ih with ⟨heq, hnone⟩ | ⟨hstate, env', henv', hbegins⟩
    · rw [heq]
      cases ends_run E env with
      | unbegun hbegins hafter =>
        exact .inl ⟨hafter, List.forall_mem_append.2 ⟨hnone, List.forall_mem_singleton.2 hbegins⟩⟩
      | stuck hbegins _ hstart _ => exact .inr ⟨hstart, env, by simp, hbegins⟩
      | opened hgenuine _ hafter =>
        refine .inr ⟨?_, env, by simp, hgenuine.begins⟩
        rw [hafter]
        exact ConnectionState.noConfusion
    · rw [run_blocked hstate]
      exact .inr ⟨hstate, env', List.mem_append_left _ henv', hbegins⟩

theorem opens_iff [Interpreter] (earlier : List (RunEnv SK)) (hgenuine : Genuine E env) :
    Opens env ((machine E).run {} earlier) (run E env ((machine E).run {} earlier)).1 ↔
      (∀ env' ∈ earlier, ¬ Begins E env') ∧ SessionArrives E env := by
  rcases run_cases E earlier with ⟨heq, hnone⟩ | ⟨hstate, env', henv', hbegins⟩
  · rw [heq]
    cases ends_run E env with
    | unbegun hbegins _ => exact absurd hgenuine.begins hbegins
    | stuck _ hnot _ hactive =>
      exact iff_of_false (fun h => hactive h.1) (fun h => hnot ⟨hgenuine, h.2⟩)
    | opened _ harrives hafter =>
      rw [hafter]
      exact iff_of_true ⟨rfl, rfl⟩ ⟨hnone, harrives⟩
  · rw [run_blocked hstate]
    refine iff_of_false (fun h => ?_) (fun h => h.1 env' henv' hbegins)
    exact absurd h.2 (by simp)

variable (E)

/-- **When handshakes keep opening sessions**: every genuine one in a sequence of runs does, if and
only if no certificate frame was delivered in a run before it, and its session frame arrives. -/
theorem genuine_opens_iff [Interpreter] (envs : List (RunEnv SK)) :
    (∀ earlier env later, envs = earlier ++ env :: later → Genuine E env →
      Opens env ((machine E).run {} earlier) (run E env ((machine E).run {} earlier)).1) ↔
    ∀ earlier env later, envs = earlier ++ env :: later → Genuine E env →
      (∀ env' ∈ earlier, ¬ Begins E env') ∧ SessionArrives E env := by
  constructor
  · intro h earlier env later henvs hgenuine
    exact (opens_iff earlier hgenuine).1 (h earlier env later henvs hgenuine)
  · intro h earlier env later henvs hgenuine
    exact (opens_iff earlier hgenuine).2 (h earlier env later henvs hgenuine)

/-- The signature frame of a run is replaced by an empty one. -/
def unsignedEnv : RunEnv UInt8 :=
  { honestEnv with
    adversary := fun hop queue =>
      match hop with
      | .signature => [⟨CanId.signature, []⟩]
      | _ => queue }

theorem issued_unsigned : issued plainEcdsa unsignedEnv = .ok honestCertificate := by
  decide +kernel

theorem not_genuine_unsigned [Interpreter] : ¬ Genuine plainEcdsa unsignedEnv := by
  intro h
  obtain ⟨certificate, certMsg, sigMsg, hissued, -, hsig, c, publicKey, -, -, -, hsigned⟩ := h
  obtain rfl : honestCertificate = certificate :=
    Except.ok.inj (issued_unsigned.symm.trans hissued)
  have hempty : (signatureQueue plainEcdsa unsignedEnv honestCertificate).head? =
      some ⟨CanId.signature, []⟩ := by decide +kernel
  obtain rfl : ⟨CanId.signature, []⟩ = sigMsg := Option.some.inj (hempty.symm.trans hsig)
  rw [verifySignature_eq_true] at hsigned
  cases hsigned

open CPython in
/-- After a run whose signature was refused, the honest run opens nothing. -/
theorem not_genuine_opens :
    ¬ Genuine plainEcdsa unsignedEnv ∧
    ¬ ∀ earlier env later, [unsignedEnv, honestEnv] = earlier ++ env :: later →
      Genuine plainEcdsa env → Opens env ((machine plainEcdsa).run {} earlier)
        (run plainEcdsa env ((machine plainEcdsa).run {} earlier)).1 := by
  refine ⟨not_genuine_unsigned, fun h => ?_⟩
  obtain ⟨hhonest, -⟩ := run_honest
  have hgenuine : Genuine plainEcdsa honestEnv := by
    cases ends_run plainEcdsa honestEnv with
    | unbegun _ hafter => cases hhonest.symm.trans hafter
    | stuck _ _ _ hnot =>
      rw [hhonest] at hnot
      exact absurd rfl hnot
    | opened hgenuine _ _ => exact hgenuine
  have hopens := h [unsignedEnv] honestEnv [] rfl hgenuine
  obtain ⟨hnone, -⟩ := (opens_iff [unsignedEnv] hgenuine).1 hopens
  have hbegins : Begins plainEcdsa unsignedEnv :=
    ⟨honestCertificate, issued_unsigned, List.cons_ne_nil _ _⟩
  exact hnone unsignedEnv List.mem_cons_self hbegins

end BattLock.Orchestrator
