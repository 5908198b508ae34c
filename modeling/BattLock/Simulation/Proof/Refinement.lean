import BattLock.Can.Proof.CertificateCodec
import BattLock.Can.Simulation.BatteryNode
import BattLock.Can.Simulation.Proof.Authentication
import BattLock.Simulation.Proof.Agreement

/-!
# The handshake on the CAN bus

The nodes of `can/simulation/` do what those of `simulation/` do: a call on messages and the same
call on the frames that carry them leave the nodes alike and give the same verdict, except that the
CAN node says `False` where the other raises because it was given no certificate or no challenge
yet (`can_simulates`). Telemetry may come in between.
-/

namespace BattLock.Simulation

open Python Mealy

variable {SK PK : Type} (E : Ecdsa SK PK)

/-! ## The nodes on the bus -/

/-- A vehicle and a battery of `can/simulation/`. -/
structure CanNodes where
  vehicle : BattLock.VehicleNode PK
  battery : BattLock.BatteryNode (SoftwareProvider E)

inductive CanCall
  | vehicle (call : VehicleNode.Call)
  /-- `receive_nonce`, then `sign_and_respond`. -/
  | respond (message : CANMessage) (entropy : Nat)
  | sendStatus

inductive CanOutcome
  | vehicle (outcome : VehicleNode.Outcome)
  | frame (r : Except Err CANMessage)

def canSystem [Interpreter] : Mealy (CanNodes E) CanCall CanOutcome where
  step self
    | .vehicle call =>
      let (vehicle, outcome) := (VehicleNode.machine E).step self.vehicle call
      ({ self with vehicle }, .vehicle outcome)
    | .respond message entropy =>
      let (battery, _) := self.battery.receiveNonce message
      ({ self with battery }, .frame (battery.signAndRespond entropy))
    | .sendStatus =>
      let (battery, r) := self.battery.sendStatus
      ({ self with battery }, .frame r)

/-! ## What is carried by what -/

/-- A call on a message, and the call on the frame that carries it. -/
inductive Carried : Action Unit Unit → CanCall → Prop
  | hello {c : Certificate Str} {now : Datetime} : c.IsUnicode →
      Carried (.processHello () ⟨c⟩ now)
        (.vehicle (.receiveAndVerifyCertificate (encodeCertificate c) now))
  | challenge {c : Challenge} :
      Carried (.createAuthChallenge () c) (.vehicle (.sendNonce c.nonce (some c.timestamp)))
  | respond {c : AuthChallenge} {entropy : Nat} :
      Carried (.respondToChallenge () c entropy) (.respond (encodeNonce c.challengeData) entropy)
  | verify {r : AuthResponse} :
      Carried (.verifyAuthResponse () r)
        (.vehicle (.receiveAndVerifySignature (encodeSignature r.signature)))

/-- Calls that have no part in the handshake. -/
inductive Telemetry : CanCall → Prop
  | receive (m : CANMessage) : Telemetry (.vehicle (.receive m))
  | sendStatus : Telemetry .sendStatus

/-- The same answer; at a response the nodes on objects may raise where the CAN vehicle says
`False`. -/
inductive Matches : Action Unit Unit × Outcome → CanCall × CanOutcome → Prop
  | same {action : Action Unit Unit} {call : CanCall} {r : Except Err Bool} :
      Matches (action, .verdict r) (call, .vehicle (.verdict r))
  | missing {r : AuthResponse} {m : CANMessage} {e : Err} :
      Matches (.verifyAuthResponse () r, .verdict (.error e))
        (.vehicle (.receiveAndVerifySignature m), .vehicle (.verdict (.ok false)))
  | challenge {action : Action Unit Unit} {call : CanCall} {c : AuthChallenge} :
      Matches (action, .challenge c) (call, .vehicle (.sent (encodeNonce c.challengeData)))
  | response {action : Action Unit Unit} {call : CanCall} {r : AuthResponse} :
      Matches (action, .response r) (call, .frame (.ok (encodeSignature r.signature)))

/-- The nodes hold the same. -/
structure Alike (b : BatteryNode SK PK) (vehicles : Unit → VehicleNode PK) (nodes : CanNodes E) :
    Prop where
  root : nodes.vehicle.rootCaPublicKey = some (vehicles ()).manufacturerPublicKey
  certificate : nodes.vehicle.storedCertificate = (vehicles ()).certificate.map Certificate.decoded
  challenge : nodes.vehicle.challengeData =
    (vehicles ()).challenge.map fun c => (sent c).challengeData
  key : nodes.battery.battery.keys.provider.keys.privateKey = b.privateKey

/-! ## One call -/

section
variable {E : Ecdsa SK PK} {b : BatteryNode SK PK} {vehicles : Unit → VehicleNode PK}
  {nodes : CanNodes E}

/-- A decoded certificate is judged as the one it was made of. -/
theorem verifyCertificate_decoded (c : Certificate Str) (publicKey : PK) (now : Datetime) :
    verifyCertificate E c.decoded publicKey now = verifyCertificate E c publicKey now := rfl

theorem receiveAndVerifyCertificate_sent [Interpreter] {self : BattLock.VehicleNode PK} {root : PK}
    (hroot : self.rootCaPublicKey = some root) {c : Certificate Str} (hc : c.IsUnicode)
    (now : Datetime) :
    self.receiveAndVerifyCertificate E (encodeCertificate c) now =
      ({ self with storedCertificate := some c.decoded }, verifyCertificate E c root now) := by
  have hdecode : decodeCertificate (encodeCertificate c) = .ok c.decoded :=
    decodeCertificate_ok hc CanId.certificate
  simp only [BattLock.VehicleNode.receiveAndVerifyCertificate, hdecode, hroot,
    verifyCertificate_decoded]

/-- Both vehicles verify a response alike, but for what is missing. -/
theorem Alike.verify (h : Alike E b vehicles nodes) (r : AuthResponse) :
    Matches (.verifyAuthResponse () r, .verdict ((vehicles ()).verifyAuthResponse E r))
      (.vehicle (.receiveAndVerifySignature (encodeSignature r.signature)), .vehicle (.verdict
        (nodes.vehicle.receiveAndVerifySignature E (encodeSignature r.signature)))) := by
  unfold VehicleNode.verifyAuthResponse verifyChallengeResponse
    BattLock.VehicleNode.receiveAndVerifySignature
  rw [h.certificate, h.challenge]
  cases (vehicles ()).certificate with
  | none => exact .missing
  | some c =>
    cases (vehicles ()).challenge with
    | none =>
      dsimp only [Option.map_some, Option.map_none]
      cases deserializePublicKey E c.publicKey with
      | error e => exact .missing
      | ok publicKey => exact .missing
    | some challenge => exact .same

end

/-- **One call of each side.** -/
theorem alike_step [Interpreter] (b : BatteryNode SK PK) :
    Simulates (system E fun _ : Unit => b) (canSystem E) (Alike E b) Carried Matches
      Telemetry where
  step vehicles nodes action call h hcarried := by
    cases hcarried with
    | @hello c now hc =>
      simp only [canSystem, VehicleNode.machine, receiveAndVerifyCertificate_sent h.root hc]
      exact ⟨⟨h.root, rfl, h.challenge, h.key⟩, .same⟩
    | challenge => exact ⟨⟨h.root, h.certificate, rfl, h.key⟩, .challenge⟩
    | @respond c entropy =>
      have hsign : ((nodes.battery.receiveNonce (encodeNonce c.challengeData)).1).signAndRespond
          entropy = .ok (encodeSignature (b.respondToChallenge E c entropy).signature) := by
        rw [BatteryNode.respondToChallenge, ← h.key]
        rfl
      refine ⟨⟨h.root, h.certificate, h.challenge, h.key⟩, ?_⟩
      simp only [canSystem, hsign]
      exact .response
    | verify => exact ⟨h, h.verify _⟩
  hide vehicles nodes call h hhidden := by
    cases hhidden with
    | receive m =>
      obtain ⟨hcertificate, hroot, hchallenge⟩ := VehicleNode.receive_keeps nodes.vehicle m
      exact ⟨hroot.trans h.root, hcertificate.trans h.certificate, hchallenge.trans h.challenge,
        h.key⟩
    | sendStatus => exact ⟨h.root, h.certificate, h.challenge, h.key⟩

/-! ## Runs -/

/-- The nodes on the bus as they are made: the vehicle with a root key, the battery with a key. -/
def canNodes (root : PK) (b : BatteryNode SK PK) : CanNodes E where
  vehicle := BattLock.VehicleNode.init (some root)
  battery := {
    battery := {
      identity := ⟨b.batteryId, Str.ofString "SN0001", b.manufacturerId⟩
      keys := ⟨⟨SoftwareKeys.init E b.privateKey⟩⟩ } }

theorem alike_new (root : PK) (b : BatteryNode SK PK) :
    Alike E b (fresh fun _ => root) (canNodes E root b) := ⟨rfl, rfl, rfl, rfl⟩

/-- **The handshake on the bus is the handshake on objects**: calls on frames are answered as the
calls on the messages they carry, whatever telemetry comes in between. Once a hello and a challenge
were given, the verdicts on a response are the same, exceptions included. -/
theorem can_simulates [Interpreter] (root : PK) (b : BatteryNode SK PK)
    (actions : List (Action Unit Unit)) (calls : List CanCall)
    (h : Weave Carried Telemetry actions calls) :
    Weave (fun e e' => Carried e.1 e'.1 ∧ Matches e e') (fun e' => Telemetry e'.1)
        ((system E fun _ => b).log (fresh fun _ => root) actions)
        ((canSystem E).log (canNodes E root b) calls) ∧
      ((∃ hello now, .processHello () hello now ∈ actions) →
        (∃ c, .createAuthChallenge () c ∈ actions) → ∀ r : AuthResponse,
          (((canSystem E).run (canNodes E root b) calls).vehicle.receiveAndVerifySignature E
              (encodeSignature r.signature)) =
            ((system E fun _ => b).run (fresh fun _ => root) actions ()).verifyAuthResponse E
              r) := by
  obtain ⟨halike, hlogs⟩ := (alike_step E b).run _ _ (alike_new E root b) h
  refine ⟨hlogs, fun hhello hchallenge r => ?_⟩
  obtain ⟨hello, now, hhello⟩ := hhello
  obtain ⟨challenge, hchallenge⟩ := hchallenge
  have hcertificate := (system E fun _ : Unit => b).isSome_run (fun s => (s ()).certificate)
    (fun a => a.certificate? ()) (certificate_set E _ ()) (certificate_kept E _ ())
    (fresh fun _ => root) hhello rfl
  have hstored := (system E fun _ : Unit => b).isSome_run (fun s => (s ()).challenge)
    (fun a => a.challenge? ()) (challenge_set E _ ()) (challenge_kept E _ ())
    (fresh fun _ => root) hchallenge rfl
  obtain ⟨c, hc⟩ := Option.isSome_iff_exists.1 hcertificate
  obtain ⟨c', hc'⟩ := Option.isSome_iff_exists.1 hstored
  unfold VehicleNode.verifyAuthResponse verifyChallengeResponse
    BattLock.VehicleNode.receiveAndVerifySignature
  rw [halike.certificate, halike.challenge, hc, hc']
  rfl

open CPython in
/-- A status frame arrives between the challenge and the response. -/
theorem can_simulates_tesla :
    (((canSystem plainEcdsa).run (canNodes plainEcdsa 7 (twoBatteries true)) [
        .vehicle (.receiveAndVerifyCertificate (encodeCertificate teslaCertificate)
          ⟨2026, 6, 1, 0⟩),
        .vehicle (.sendNonce onesChallenge.nonce (some onesChallenge.timestamp)),
        .vehicle (.receive ⟨CanId.batteryStatus, []⟩)]).vehicle.receiveAndVerifySignature plainEcdsa
      (encodeSignature [9])) =
    ((system plainEcdsa fun _ : Unit => twoBatteries true).run (fresh fun _ => 7) [
        .processHello () ⟨teslaCertificate⟩ ⟨2026, 6, 1, 0⟩,
        .createAuthChallenge () onesChallenge] ()).verifyAuthResponse plainEcdsa ⟨[9]⟩ := by
  have hc : teslaCertificate.IsUnicode := ⟨Str.isUnicode_ofChars _, Str.isUnicode_ofChars _,
    Str.isUnicode_ofChars _, Str.isUnicode_ofChars _⟩
  exact (can_simulates plainEcdsa 7 (twoBatteries true) _ _
    (.cons (.hello hc) (.cons .challenge (.hide (.receive _) .nil)))).2 ⟨_, _, List.mem_cons_self⟩
      ⟨_, List.mem_cons_of_mem _ List.mem_cons_self⟩ ⟨[9]⟩

end BattLock.Simulation
