import BattLock.Crypto.Proof.Binding
import BattLock.Integration.Orchestrator

/-!
# What a run of the orchestrator can do

Up to the check of the signature the orchestrator adds no session and stays at `CHALLENGE_SENT` or
below; past it the run holds an authentic handshake (`Authentic`): the delivered certificate and
the delivered signature were checked and both checks passed. `handshake_ended` says this of every
point of a run, however it ends, and `session_authentic` of every sequence of runs.
-/

namespace BattLock.Orchestrator

open Python Prog

variable {SK PK : Type} (E : Ecdsa SK PK) (env : RunEnv SK) (o₀ : Orchestrator)

/-! ## Assertions -/

/-- No session was added since `o₀`, and the state was and is at most `CHALLENGE_SENT`. -/
structure Quiet (o : Orchestrator) : Prop where
  sessions : o.sessionManager = o₀.sessionManager
  before : o₀.stateMachine.state.value ≤ ConnectionState.challengeSent.value
  after : o.stateMachine.state.value ≤ ConnectionState.challengeSent.value

/-- An event that leaves the orchestrator quiet. -/
def QuietEvent : Event → Prop
  | .changed o => Quiet o₀ o
  | _ => True

/-- An event that is not a check that failed or raised. -/
def Passed : Event → Prop
  | .certificateCheck _ r => r = .ok true
  | .signatureCheck _ r => r = .ok true
  | _ => True

/-- The events hold a handshake in which the delivered certificate verified under the root key of
the run and the delivered signature under that certificate's key, over the challenge sent. -/
def Authentic [Interpreter] (events : List Event) : Prop :=
  ∃ certMsg certificate nonceMsg sigMsg publicKey,
    [.delivered .certificate (some certMsg), .certificateCheck certMsg (.ok true),
      .challengeSent nonceMsg, .delivered .signature (some sigMsg),
      .signatureCheck sigMsg (.ok true)].Sublist events ∧
    decodeCertificate certMsg = .ok certificate ∧
    verifyCertificate E certificate (E.publicKey env.caKey) env.verifyTime = .ok true ∧
    nonceMsg.data = env.nonce ++ encodeChars (strInt env.timestamp) ∧
    deserializePublicKey E certificate.publicKey = .ok publicKey ∧
    verifySignature E publicKey nonceMsg.data (decodeSignature sigMsg) = .ok true

/-- A point of a run before the signature is checked: what is known of the orchestrator and the
vehicle, and events that happened in this order. -/
structure At (F : Orchestrator → VehicleNode PK → Prop) (trace : List Event) (s : RunState E) :
    Prop where
  frame : F s.orchestrator s.vehicle
  quiet : ∀ e ∈ s.events, QuietEvent o₀ e
  passed : ∀ e ∈ s.events, Passed e
  trace : trace.Sublist s.events

/-- A run that ends before the signature is accepted. -/
structure Halted (s : RunState E) : Prop where
  orchestrator : s.orchestrator = o₀ ∧ (∀ e ∈ s.events, Passed e) ∨ Quiet o₀ s.orchestrator
  quiet : ∀ e ∈ s.events, QuietEvent o₀ e

/-- A point of a run after the signature was accepted. -/
structure Done [Interpreter] (events : List Event) : Prop where
  passed : ∀ e ∈ events, Passed e
  authentic : Authentic E env events
  sound : ∀ l₁ o l₂, events = l₁ ++ .changed o :: l₂ → Quiet o₀ o ∨ Authentic E env l₁

abbrev Finishing [Interpreter] (s : RunState E) : Prop := Done E env o₀ s.events

/-- What holds at the end of a run that leaves `after`. -/
structure Sound [Interpreter] (after : Orchestrator) (events : List Event) : Prop where
  sound : ∀ l₁ o l₂, events = l₁ ++ .changed o :: l₂ → Quiet o₀ o ∨ Authentic E env l₁
  final : after = o₀ ∨ Quiet o₀ after ∨ Authentic E env events
  failed : (∃ e ∈ events, ¬ Passed e) → Quiet o₀ after ∧ ∀ e ∈ events, QuietEvent o₀ e

abbrev Ended [Interpreter] (s : RunState E) : Prop := Sound E env o₀ s.orchestrator s.events

variable {E} {env} {o₀} {o : Orchestrator} {F F' : Orchestrator → VehicleNode PK → Prop}
  {trace : List Event} {s : RunState E}

theorem Authentic.append [Interpreter] {events : List Event} (h : Authentic E env events)
    (l : List Event) : Authentic E env (events ++ l) := by
  obtain ⟨certMsg, certificate, nonceMsg, sigMsg, publicKey, hsub, h⟩ := h
  exact ⟨certMsg, certificate, nonceMsg, sigMsg, publicKey,
    hsub.trans (List.sublist_append_left _ _), h⟩

theorem Halted.ended [Interpreter] (h : Halted E o₀ s) : Ended E env o₀ s where
  sound l₁ o l₂ he := .inl (h.quiet (.changed o) (by rw [he]; simp))
  final := h.orchestrator.elim (fun h => .inl h.1) (fun h => .inr (.inl h))
  failed := by
    intro hex
    obtain ⟨e, he, hfail⟩ := hex
    rcases h.orchestrator with ⟨-, hpassed⟩ | hquiet
    · exact absurd (hpassed e he) hfail
    · exact ⟨hquiet, h.quiet⟩

theorem Done.ended [Interpreter] (h : Done E env o₀ s.events) : Ended E env o₀ s where
  sound := h.sound
  final := .inr (.inr h.authentic)
  failed := fun ⟨e, he, hfail⟩ => absurd (h.passed e he) hfail

/-- What happens after the signature was accepted comes after an authentic handshake. -/
theorem Done.concat [Interpreter] {events : List Event} (h : Done E env o₀ events) {e : Event}
    (he : Passed e) : Done E env o₀ (events ++ [e]) where
  passed := List.forall_mem_append.2 ⟨h.passed, List.forall_mem_singleton.2 he⟩
  authentic := h.authentic.append _
  sound l₁ o l₂ heq := by
    rcases List.eq_nil_or_concat l₂ with rfl | ⟨l, e', rfl⟩
    · obtain ⟨rfl, -⟩ := List.append_inj' heq rfl
      exact .inr h.authentic
    · rw [List.concat_eq_append, ← List.cons_append, ← List.append_assoc] at heq
      obtain ⟨heq, -⟩ := List.append_inj' heq rfl
      exact h.sound l₁ o l heq

/-! ## Steps before the signature is accepted -/

/-- What is known of the orchestrator makes the end of the run here harmless. -/
def Harmless (o₀ : Orchestrator) (F : Orchestrator → VehicleNode PK → Prop) : Prop :=
  ∀ o v, F o v → o = o₀ ∨ Quiet o₀ o

theorem At.halted (hF : Harmless o₀ F) (h : At E o₀ F trace s) : Halted E o₀ s where
  orchestrator := (hF _ _ h.frame).imp (fun ho => ⟨ho, h.passed⟩) id
  quiet := h.quiet

theorem At.concat (h : At E o₀ F trace s) {s' : RunState E} {e : Event}
    (hevents : s'.events = s.events ++ [e]) (hframe : F' s'.orchestrator s'.vehicle)
    (hquiet : QuietEvent o₀ e) (hpassed : Passed e) : At E o₀ F' (trace ++ [e]) s' where
  frame := hframe
  quiet := by
    rw [hevents]
    exact List.forall_mem_append.2 ⟨h.quiet, List.forall_mem_singleton.2 hquiet⟩
  passed := by
    rw [hevents]
    exact List.forall_mem_append.2 ⟨h.passed, List.forall_mem_singleton.2 hpassed⟩
  trace := by
    rw [hevents]
    exact h.trace.append (List.Sublist.refl _)

theorem At.weaken (h : At E o₀ F trace s) {trace' : List Event} (htrace : trace'.Sublist trace)
    (hF : ∀ o v, F o v → F' o v) : At E o₀ F' trace' s :=
  ⟨hF _ _ h.frame, h.quiet, h.passed, htrace.trans h.trace⟩

theorem At.halted_concat (h : At E o₀ F trace s) {s' : RunState E} {e : Event}
    (hevents : s'.events = s.events ++ [e]) (horchestrator : Quiet o₀ s'.orchestrator)
    (hquiet : QuietEvent o₀ e) : Halted E o₀ s' where
  orchestrator := .inr horchestrator
  quiet := by
    rw [hevents]
    exact List.forall_mem_append.2 ⟨h.quiet, List.forall_mem_singleton.2 hquiet⟩

theorem triple_get {P : RunState E → Prop} {X : Exit → RunState E → Prop} :
    Triple P Prog.get (fun _ => P) X := Triple.get fun _ hs => hs

theorem triple_send {m : CANMessage} {X : Exit → RunState E → Prop} :
    Triple (At E o₀ F trace) (send m) (fun _ => At E o₀ F trace) X :=
  ⟨fun _ hs => ⟨hs.frame, hs.quiet, hs.passed, hs.trace⟩⟩

theorem triple_receive {hop : Hop} {X : Exit → RunState E → Prop} :
    Triple (At E o₀ F trace) (receive env hop)
      (fun m => At E o₀ F (trace ++ [.delivered hop m])) X :=
  ⟨fun _ hs => hs.concat rfl hs.frame trivial trivial⟩

theorem triple_receive_any {hop : Hop} {X : Exit → RunState E → Prop} :
    Triple (At E o₀ F trace) (receive env hop) (fun _ => At E o₀ F trace) X :=
  triple_receive.results fun _ _ hs =>
    hs.weaken (List.sublist_append_left _ _) (fun _ _ h => h)

section
variable (hF : Harmless o₀ F)
include hF

theorem triple_call {α : Type} {x : Except Err α} :
    Triple (At E o₀ F trace) (call x) (fun _ => At E o₀ F trace) (fun _ => Halted E o₀) :=
  Triple.lift (fun _ _ _ hs => hs) (fun _ _ _ hs => hs.halted hF)

theorem triple_logCanMessage {hop : Hop} {m : Option CANMessage} :
    Triple (At E o₀ F (trace ++ [.delivered hop m])) (logCanMessage m)
      (fun m => At E o₀ F (trace ++ [.delivered hop (some m)])) (fun _ => Halted E o₀) := by
  cases m with
  | some m => exact Triple.pure fun _ hs => hs
  | none => exact Triple.stop fun _ hs => hs.halted hF

theorem triple_transition {source target : ConnectionState}
    {fn : BattLockStateMachine → BattLockStateMachine × Bool}
    (hfn : ∀ m, fn m = m.advance source target)
    (hsource : source.value ≤ ConnectionState.challengeSent.value)
    (htarget : target.value ≤ ConnectionState.challengeSent.value)
    (hF' : ∀ o v, F o v → Quiet o₀ { o with stateMachine := ⟨target⟩ } →
      F' { o with stateMachine := ⟨target⟩ } v) :
    Triple (At E o₀ F trace) (transition fn) (fun _ => At E o₀ F' trace)
      (fun _ => Halted E o₀) := by
  refine ⟨fun s hs => ?_⟩
  let orchestrator := { s.orchestrator with stateMachine := ⟨target⟩ }
  by_cases hstate : s.orchestrator.stateMachine.state = source
  · have hquiet : Quiet o₀ orchestrator := by
      rcases hF _ _ hs.frame with ho | ho
      · exact ⟨by rw [← ho], by rw [← ho, hstate]; exact hsource, htarget⟩
      · exact ⟨ho.sessions, ho.before, htarget⟩
    have hconcat : At E o₀ F' (trace ++ [.changed orchestrator])
        { s with orchestrator, events := s.events ++ [.changed orchestrator] } :=
      hs.concat rfl (hF' _ _ hs.frame hquiet) hquiet trivial
    simp only [transition, hfn, BattLockStateMachine.advance, hstate, ↓reduceIte]
    exact hconcat.weaken (List.sublist_append_left _ _) (fun _ _ h => h)
  · simp only [transition, hfn, BattLockStateMachine.advance, hstate, ↓reduceIte,
      Bool.false_eq_true]
    exact hs.halted hF

end

/-! ## The phases -/

variable (E env o₀)

/-- At the start: the vehicle trusts the root key of the run. -/
def Started (o : Orchestrator) (v : VehicleNode PK) : Prop :=
  o = o₀ ∧ v.rootCaPublicKey = some (E.publicKey env.caKey)

/-- After the first transition. -/
def Greeted (o : Orchestrator) (v : VehicleNode PK) : Prop :=
  Quiet o₀ o ∧ v.rootCaPublicKey = some (E.publicKey env.caKey)

/-- The vehicle holds the certificate of `certMsg`, which verified. -/
def Certified [Interpreter] (certMsg : CANMessage) (o : Orchestrator) (v : VehicleNode PK) : Prop :=
  Quiet o₀ o ∧ ∃ certificate, v.storedCertificate = some certificate ∧
    decodeCertificate certMsg = .ok certificate ∧
    verifyCertificate E certificate (E.publicKey env.caKey) env.verifyTime = .ok true

/-- The frame of `send_nonce`. -/
def nonceMsg : CANMessage :=
  encodeNonce (VehicleNode.challengeBytes env.nonce (some env.timestamp))

/-- The vehicle holds the challenge too. -/
def Challenged [Interpreter] (certMsg : CANMessage) (o : Orchestrator) (v : VehicleNode PK) :
    Prop :=
  Certified E env o₀ certMsg o v ∧
    v.challengeData = some (VehicleNode.challengeBytes env.nonce (some env.timestamp))

variable {E env o₀} {certMsg : CANMessage}

theorem harmless_started : Harmless o₀ (Started E env o₀) := fun _ _ h => .inl h.1

theorem harmless_certified [Interpreter] : Harmless o₀ (Certified E env o₀ certMsg) :=
  fun _ _ h => .inr h.1

theorem harmless_challenged [Interpreter] : Harmless o₀ (Challenged E env o₀ certMsg) :=
  fun _ _ h => .inr h.1.1

theorem triple_issueCertificate :
    Triple (At E o₀ (Started E env o₀) []) (issueCertificate env)
      (fun _ => At E o₀ (Started E env o₀) []) (fun _ => Halted E o₀) :=
  triple_get.bind fun _ => (triple_call harmless_started).bind fun _ =>
    (triple_call harmless_started).bind fun _ => triple_call harmless_started

theorem triple_certificateExchange :
    Triple (At E o₀ (Started E env o₀) []) (certificateExchange env)
      (fun m => At E o₀ (Started E env o₀) ([] ++ [.delivered .certificate (some m)]))
      (fun _ => Halted E o₀) :=
  triple_issueCertificate.bind fun _ => triple_get.bind fun _ => triple_send.bind fun _ =>
    triple_receive_any.bind fun _ => triple_send.bind fun _ => triple_receive.bind fun _ =>
      triple_logCanMessage harmless_started

theorem triple_checkCertificate [Interpreter] {m : CANMessage} :
    Triple (At E o₀ (Greeted E env o₀) trace) (checkCertificate env m)
      (fun b s => if b = true then
        At E o₀ (Certified E env o₀ m) (trace ++ [.certificateCheck m (.ok true)]) s
        else Halted E o₀ s)
      (fun _ => Halted E o₀) := by
  refine ⟨fun s hs => ?_⟩
  obtain ⟨hquiet, hroot⟩ := hs.frame
  unfold checkCertificate VehicleNode.receiveAndVerifyCertificate
  cases hm : decodeCertificate m with
  | error e => exact hs.halted_concat rfl hquiet trivial
  | ok certificate =>
    simp only [hroot]
    cases hv : verifyCertificate E certificate (E.publicKey env.caKey) env.verifyTime with
    | error e => exact hs.halted_concat rfl hquiet trivial
    | ok b =>
      cases b with
      | false => exact hs.halted_concat rfl hquiet trivial
      | true => exact hs.concat rfl ⟨hquiet, certificate, rfl, hm, hv⟩ trivial rfl

theorem triple_abortUnless {b : Bool} {P Q : RunState E → Prop} :
    Triple (fun s => if b = true then P s else Q s) (abortUnless b) (fun _ => P)
      (fun _ => Q) := by
  cases b with
  | true => exact Triple.pure fun _ hs => hs
  | false => exact Triple.stop fun _ hs => hs

theorem triple_certificateVerification [Interpreter] {m : CANMessage} :
    Triple (At E o₀ (Started E env o₀) trace) (certificateVerification env m)
      (fun _ => At E o₀ (Certified E env o₀ m) (trace ++ [.certificateCheck m (.ok true)]))
      (fun _ => Halted E o₀) := by
  have hhello : Triple (At E o₀ (Started E env o₀) trace)
      (transition BattLockStateMachine.helloReceived)
      (fun _ => At E o₀ (Greeted E env o₀) trace) (fun _ => Halted E o₀) :=
    triple_transition harmless_started (fun _ => rfl) (by decide) (by decide)
      (fun _ _ h hquiet => ⟨hquiet, h.2⟩)
  exact hhello.bind fun _ => triple_checkCertificate.bind fun _ => triple_abortUnless.bind fun _ =>
    triple_transition harmless_certified (fun _ => rfl) (by decide) (by decide)
      (fun _ _ h hquiet => ⟨hquiet, h.2⟩)

theorem triple_sendChallenge [Interpreter] :
    Triple (At E o₀ (Certified E env o₀ certMsg) trace) (sendChallenge env)
      (fun _ => At E o₀ (Challenged E env o₀ certMsg) (trace ++ [.challengeSent (nonceMsg env)]))
      (fun _ => Halted E o₀) :=
  ⟨fun _ hs => hs.concat rfl ⟨hs.frame, rfl⟩ trivial trivial⟩

theorem triple_signChallenge [Interpreter] {m : CANMessage} :
    Triple (At E o₀ (Challenged E env o₀ certMsg) trace) (signChallenge env m)
      (fun _ => At E o₀ (Challenged E env o₀ certMsg) trace) (fun _ => Halted E o₀) := by
  refine ⟨fun s hs => ?_⟩
  unfold signChallenge
  dsimp only
  cases ((s.batteryNode.receiveNonce m).1.signAndRespond env.signatureEntropy) with
  | ok sigMsg => exact ⟨hs.frame, hs.quiet, hs.passed, hs.trace⟩
  | error e => exact ⟨.inr hs.frame.1.1, hs.quiet⟩

theorem triple_challengeResponse [Interpreter] :
    Triple (At E o₀ (Certified E env o₀ certMsg) trace) (challengeResponse env)
      (fun m => At E o₀ (Challenged E env o₀ certMsg)
        (trace ++ [.challengeSent (nonceMsg env)] ++ [.delivered .signature (some m)]))
      (fun _ => Halted E o₀) := by
  have htransition {trace : List Event} :
      Triple (At E o₀ (Challenged E env o₀ certMsg) trace)
        (transition BattLockStateMachine.challengeSent)
        (fun _ => At E o₀ (Challenged E env o₀ certMsg) trace) (fun _ => Halted E o₀) :=
    triple_transition harmless_challenged (fun _ => rfl) (by decide) (by decide)
      (fun _ _ h hquiet => ⟨⟨hquiet, h.1.2⟩, h.2⟩)
  -- The delivered challenge is kept in the trace until its log, which needs a frame.
  have hsign {m : CANMessage} : Triple
      (At E o₀ (Challenged E env o₀ certMsg)
        (trace ++ [.challengeSent (nonceMsg env)] ++ [.delivered .challenge (some m)]))
      (signChallenge env m)
      (fun _ => At E o₀ (Challenged E env o₀ certMsg) (trace ++ [.challengeSent (nonceMsg env)]))
      (fun _ => Halted E o₀) :=
    triple_signChallenge.results fun _ _ hs =>
      hs.weaken (List.sublist_append_left _ _) (fun _ _ h => h)
  exact triple_sendChallenge.bind fun _ => htransition.bind fun _ => triple_receive.bind fun _ =>
    (triple_logCanMessage harmless_challenged).bind fun _ => hsign.bind fun _ =>
      triple_send.bind fun _ => triple_receive.bind fun _ =>
        triple_logCanMessage harmless_challenged

/-- The events of a run in which both checks passed, up to the second one. -/
def acceptedTrace (env : RunEnv SK) (certMsg sigMsg : CANMessage) : List Event :=
  [.delivered .certificate (some certMsg), .certificateCheck certMsg (.ok true),
    .challengeSent (nonceMsg env), .delivered .signature (some sigMsg),
    .signatureCheck sigMsg (.ok true)]

theorem triple_checkSignature [Interpreter] {m : CANMessage} :
    Triple (At E o₀ (Challenged E env o₀ certMsg) ([] ++ [.delivered .certificate (some certMsg)] ++
        [.certificateCheck certMsg (.ok true)] ++ [.challengeSent (nonceMsg env)] ++
          [.delivered .signature (some m)]))
      (checkSignature m)
      (fun b s => if b = true then Finishing E env o₀ s else Halted E o₀ s)
      (fun _ => Halted E o₀) := by
  refine ⟨fun s hs => ?_⟩
  obtain ⟨⟨hquiet, certificate, hstored, hdecode, hverify⟩, hchallenge⟩ := hs.frame
  unfold checkSignature
  cases hr : s.vehicle.receiveAndVerifySignature E m with
  | error e => exact hs.halted_concat rfl hquiet trivial
  | ok b =>
    cases b with
    | false => exact hs.halted_concat rfl hquiet trivial
    | true =>
      obtain ⟨publicKey, hkey, hsig⟩ := bind_eq_ok.1 (by
        simpa only [VehicleNode.receiveAndVerifySignature, hstored, hchallenge] using hr)
      have hat : At E o₀ (fun _ _ => True) (acceptedTrace env certMsg m)
          { s with events := s.events ++ [.signatureCheck m (.ok true)] } :=
        At.concat (e := .signatureCheck m (.ok true)) hs rfl trivial trivial rfl
      exact {
        passed := hat.passed
        authentic := ⟨certMsg, certificate, nonceMsg env, m, publicKey, hat.trace, hdecode, hverify,
          rfl, hkey, hsig⟩
        sound := fun l₁ o l₂ he => .inl (hat.quiet (.changed o) (by rw [he]; simp)) }

/-! ## Steps after the signature was accepted -/

/-- A step that records no check that failed. -/
def Records {α : Type} (x : Run E α) : Prop :=
  ∀ s, (x s).1.events = s.events ∨ ∃ e, Passed e ∧ (x s).1.events = s.events ++ [e]

theorem Records.triple [Interpreter] {α : Type} {x : Run E α} (hx : Records x) :
    Triple (Finishing E env o₀) x (fun _ => Finishing E env o₀) (fun _ => Finishing E env o₀) := by
  refine ⟨fun s hs => ?_⟩
  have hdone : Done E env o₀ (x s).1.events := by
    rcases hx s with h | ⟨e, he, h⟩
    · rw [h]; exact hs
    · rw [h]; exact hs.concat he
  match hxs : x s, hdone with
  | (_, .ok _), hdone => exact hdone
  | (_, .error _), hdone => exact hdone

theorem records_call {α : Type} (x : Except Err α) : Records (call (E := E) x) :=
  fun _ => .inl rfl

theorem records_send (m : CANMessage) : Records (send (E := E) m) := fun _ => .inl rfl

theorem records_receive (hop : Hop) : Records (receive (E := E) env hop) :=
  fun _ => .inr ⟨.delivered hop _, trivial, rfl⟩

theorem records_logCanMessage (m : Option CANMessage) : Records (logCanMessage (E := E) m) := by
  intro s
  cases m with
  | some m => exact .inl rfl
  | none => exact .inl rfl

theorem records_addSession (session : Session) : Records (addSession (E := E) session) :=
  fun _ => .inr ⟨.changed _, trivial, rfl⟩

theorem records_transition (fn : BattLockStateMachine → BattLockStateMachine × Bool) :
    Records (transition (E := E) fn) := by
  intro s
  unfold transition
  rcases fn s.orchestrator.stateMachine with ⟨stateMachine, b⟩
  cases b with
  | true => exact .inr ⟨.changed _, trivial, rfl⟩
  | false => exact .inl rfl

theorem triple_establishSession [Interpreter] :
    Triple (Finishing E env o₀) (establishSession env) (fun _ => Finishing E env o₀)
      (fun _ => Finishing E env o₀) :=
  (records_transition _).triple.bind fun _ => triple_get.bind fun _ =>
    (records_addSession _).triple.bind fun _ => (records_call _).triple.bind fun _ =>
      (records_send _).triple.bind fun _ => (records_receive _).triple.bind fun _ =>
        (records_logCanMessage _).triple.bind fun _ => (records_call _).triple.bind fun _ =>
          (records_transition _).triple.bind fun _ => triple_get.bind fun _ =>
            (records_call _).triple

/-! ## Runs -/

/-- Whatever the bus delivers and however the run ends. -/
theorem handshake_ended [Interpreter] :
    Triple (fun s => s = startup (E := E) env o₀) (handshake env) (fun _ => Ended E env o₀)
      (fun _ => Ended E env o₀) := by
  have hstart : ∀ s, s = startup (E := E) env o₀ → At E o₀ (Started E env o₀) [] s := by
    intro s hs
    subst hs
    exact ⟨⟨rfl, rfl⟩, fun _ he => absurd he List.not_mem_nil,
      fun _ he => absurd he List.not_mem_nil, List.Sublist.refl _⟩
  have hhandshake : Triple (At E o₀ (Started E env o₀) []) (handshake env)
      (fun _ => Ended E env o₀) (fun _ => Ended E env o₀) := by
    refine (triple_certificateExchange.exits fun _ _ hs => hs.ended).bind fun certMsg => ?_
    refine (triple_certificateVerification.exits fun _ _ hs => hs.ended).bind fun _ => ?_
    refine (triple_challengeResponse.exits fun _ _ hs => hs.ended).bind fun sigMsg => ?_
    refine (triple_checkSignature.exits fun _ _ hs => hs.ended).bind fun result => ?_
    cases result with
    | true =>
      exact triple_establishSession.mono (fun _ hs => hs) (fun _ _ hs => hs.ended)
        (fun _ _ hs => hs.ended)
    | false => exact Triple.pure fun _ hs => Halted.ended hs
  exact hhandshake.pre hstart

theorem sound_run [Interpreter] (o₀ : Orchestrator) :
    Sound E env o₀ (run E env o₀).1 (run E env o₀).2 := by
  have h : Ended E env o₀ (handshake env (startup (E := E) env o₀)).1 :=
    handshake_ended.final rfl
  simpa only [run] using h

/-- A session has been added, or the state machine is past the authentication. -/
def Open (o : Orchestrator) : Prop :=
  o.sessionManager.sessions ≠ [] ∨ o.stateMachine.state = .authenticated ∨
    o.stateMachine.state = .activeSession

theorem Quiet.open (h : Quiet o₀ o) (ho : Open o) : Open o₀ := by
  rcases ho with ho | ho | ho
  · exact .inl (h.sessions ▸ ho)
  · exact absurd (ho ▸ h.after) (by decide)
  · exact absurd (ho ▸ h.after) (by decide)

variable (E)

/-- An orchestrator with a session, or past the authentication, had an authentic handshake. -/
def Earned [Interpreter] (log : List (RunEnv SK × List Event)) (o : Orchestrator) : Prop :=
  Open o → ∃ r ∈ log, Authentic E r.1 r.2

theorem earned_new [Interpreter] : Earned E [] {} := by
  rintro (h | h | h)
  · exact absurd rfl h
  · cases h
  · cases h

variable {E}

/-- A run adds what it needs to the log itself. -/
theorem Sound.earned [Interpreter] {log : List (RunEnv SK × List Event)} {after : Orchestrator}
    {events : List Event} (hsound : Sound E env o₀ after events) (h : Earned E log o₀) :
    Earned E (log ++ [(env, events)]) after := by
  intro hopen
  have hold : Open o₀ → ∃ r ∈ log ++ [(env, events)], Authentic E r.1 r.2 := by
    intro ho
    obtain ⟨r, hr, hauthentic⟩ := h ho
    exact ⟨r, List.mem_append_left _ hr, hauthentic⟩
  rcases hsound.final with rfl | hquiet | hauthentic
  · exact hold hopen
  · exact hold (hquiet.open hopen)
  · exact ⟨_, List.mem_append_right _ List.mem_cons_self, hauthentic⟩

theorem step_machine [Interpreter] (o : Orchestrator) (env : RunEnv SK) :
    (machine E).step o env = run E env o := rfl

theorem earned_run [Interpreter] (envs : List (RunEnv SK)) :
    Earned E ((machine E).log {} envs) ((machine E).run {} envs) := by
  refine (machine E).log_inv (P := Earned E) (earned_new E) (fun log o env h => ?_) envs
  rw [step_machine]
  exact (sound_run o).earned h

variable (E env)

/-- A run from `before` to `after`, when the runs of `log` came before it. -/
structure Secure [Interpreter] (log : List (RunEnv SK × List Event)) (before after : Orchestrator)
    (events : List Event) : Prop where
  /-- A session, or a state past the authentication, comes after an authentic handshake in this
  run or in an earlier one. -/
  during : ∀ e₁ o e₂, events = e₁ ++ .changed o :: e₂ → Open o →
    Authentic E env e₁ ∨ ∃ r ∈ log, Authentic E r.1 r.2
  final : Open after → ∃ r ∈ log ++ [(env, events)], Authentic E r.1 r.2
  /-- If a check fails or raises, no orchestrator of the run has a new session or a state above
  `CHALLENGE_SENT`. -/
  failed : (∃ e ∈ events, ¬ Passed e) →
    ∀ o, .changed o ∈ events ∨ o = after → Quiet before o

variable {E env}

theorem Sound.secure [Interpreter] {log : List (RunEnv SK × List Event)} {after : Orchestrator}
    {events : List Event} (hsound : Sound E env o₀ after events) (h : Earned E log o₀) :
    Secure E env log o₀ after events where
  during e₁ o e₂ he ho := by
    rcases hsound.sound e₁ o e₂ he with hquiet | hauthentic
    · exact .inr (h (hquiet.open ho))
    · exact .inl hauthentic
  final := hsound.earned h
  failed hfail := by
    obtain ⟨hafter, hevents⟩ := hsound.failed hfail
    rintro o (ho | rfl)
    · exact hevents _ ho
    · exact hafter

variable (E)

/-- **Sessions are authentic**, in every run after any sequence of runs. -/
theorem session_authentic [Interpreter] (envs : List (RunEnv SK)) (env : RunEnv SK) :
    Secure E env ((machine E).log {} envs) ((machine E).run {} envs)
      (run E env ((machine E).run {} envs)).1 (run E env ((machine E).run {} envs)).2 :=
  (sound_run _).secure (earned_run envs)

/-- A day on which the battery is provisioned and the bus delivers what is sent. -/
def honestEnv : RunEnv UInt8 where
  caKey := 7
  batteryKey := 9
  certificateEntropy := 0
  signatureEntropy := 0
  issueTime := ⟨2026, 6, 1, 0⟩
  expiryTime := ⟨2026, 6, 1, 0⟩
  verifyTime := ⟨2026, 6, 1, 0⟩
  nonce := [1, 2, 3]
  timestamp := 1780300800
  sessionId := Str.ofString "a1"
  adversary _ queue := queue

open CPython in
/-- The honest run opens a session, and holds the handshake that lets it. -/
theorem session_authentic_honest :
    ∃ r ∈ [(honestEnv, (run plainEcdsa honestEnv {}).2)], Authentic plainEcdsa r.1 r.2 := by
  have hopen : Open (run plainEcdsa honestEnv {}).1 := .inr (.inr (by decide +kernel))
  exact (session_authentic plainEcdsa [] honestEnv).final hopen

end BattLock.Orchestrator
