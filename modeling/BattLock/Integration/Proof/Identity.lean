import BattLock.Integration.Proof.Handshake

/-!
# Which battery a session is recorded for

The orchestrator records the id of its own battery object (`settled_run`). The vehicle verified a
certificate that came over the bus, and what the signature covers does not fix where the battery
id in it ends: the two ids agree exactly when the delivered certificate names that battery
(`recordsVerified_iff`).
-/

namespace BattLock.Orchestrator

open Python Prog

variable {SK PK : Type} (E : Ecdsa SK PK) (env : RunEnv SK) (o₀ : Orchestrator)

/-- The identity of the battery object of every run. -/
def ownBatteryId : Str := Str.ofString "BAT001"

/-- The id in a certificate frame. -/
def certifiedBatteryId [Interpreter] (message : CANMessage) : Option Str :=
  match decodeCertificate message with
  | .ok { batteryId := .str batteryId, .. } => some batteryId
  | _ => none

/-- The session manager has, for the session of the run, the battery id of the certificate that
the vehicle verified in the run. -/
def RecordsVerified [Interpreter] (events : List Event) (o : Orchestrator) : Prop :=
  ∃ message batteryId, .certificateCheck message (.ok true) ∈ events ∧
    certifiedBatteryId message = some batteryId ∧
    o.sessionManager.getBattery env.sessionId = some batteryId

/-- The certificate that the bus delivers to the vehicle names the run's battery. -/
def DeliversOwn [Interpreter] (events : List Event) : Prop :=
  ∃ message, .delivered .certificate (some message) ∈ events ∧
    certifiedBatteryId message = some ownBatteryId

/-! ## What most steps leave alone -/

/-- The certificate arrives, or is checked. -/
def OfCertificate : Event → Bool
  | .delivered .certificate _ => true
  | .certificateCheck _ _ => true
  | _ => false

/-- No session is added, no certificate arrives or is checked, and the battery keeps its
identity. -/
structure Aside (s s' : RunState E) : Prop where
  identity : s'.batteryNode.battery.identity = s.batteryNode.battery.identity
  sessions : s'.orchestrator.sessionManager = s.orchestrator.sessionManager
  events : ∃ l, s'.events = s.events ++ l ∧ ∀ e ∈ l, OfCertificate e = false ∧
    ∀ o, e = .changed o → o.sessionManager = s.orchestrator.sessionManager

variable {E env o₀} {α β : Type}

theorem Aside.refl (s : RunState E) : Aside E s s :=
  ⟨rfl, rfl, [], (List.append_nil _).symm, fun _ he => absurd he List.not_mem_nil⟩

theorem Aside.trans {s₁ s₂ s₃ : RunState E} (h₁ : Aside E s₁ s₂) (h₂ : Aside E s₂ s₃) :
    Aside E s₁ s₃ := by
  obtain ⟨l₁, he₁, hl₁⟩ := h₁.events
  obtain ⟨l₂, he₂, hl₂⟩ := h₂.events
  refine ⟨h₂.identity.trans h₁.identity, h₂.sessions.trans h₁.sessions, l₁ ++ l₂, ?_, ?_⟩
  · rw [he₂, he₁, List.append_assoc]
  · intro e he
    rcases List.mem_append.1 he with he | he
    · exact hl₁ e he
    · obtain ⟨hcert, hchanged⟩ := hl₂ e he
      exact ⟨hcert, fun o ho => (hchanged o ho).trans h₁.sessions⟩

theorem Aside.event {s s' : RunState E} {e : Event}
    (hidentity : s'.batteryNode.battery.identity = s.batteryNode.battery.identity)
    (hsessions : s'.orchestrator.sessionManager = s.orchestrator.sessionManager)
    (hevents : s'.events = s.events ++ [e]) (hcert : OfCertificate e = false)
    (hchanged : ∀ o, e = .changed o → o.sessionManager = s.orchestrator.sessionManager) :
    Aside E s s' := by
  refine ⟨hidentity, hsessions, [e], hevents, fun e' he' => ?_⟩
  rw [List.mem_singleton.1 he']
  exact ⟨hcert, hchanged⟩

theorem aside_bind {x : Run E α} {f : α → Run E β} (hx : Keeps (Aside E) x)
    (hf : ∀ a, Keeps (Aside E) (f a)) : Keeps (Aside E) (x >>= f) :=
  Keeps.bind (fun _ _ _ => Aside.trans) hx hf

theorem aside_get : Keeps (Aside E) (Prog.get : Run E (RunState E)) :=
  Keeps.unchanged Aside.refl fun _ => rfl

theorem aside_call (x : Except Err α) : Keeps (Aside E) (call (E := E) x) :=
  Keeps.unchanged Aside.refl fun _ => rfl

theorem aside_logCanMessage (m : Option CANMessage) :
    Keeps (Aside E) (logCanMessage (E := E) m) :=
  Keeps.unchanged Aside.refl fun _ => by cases m <;> rfl

theorem aside_send (m : CANMessage) : Keeps (Aside E) (send (E := E) m) :=
  ⟨fun s => ⟨rfl, rfl, (Aside.refl s).events⟩⟩

theorem aside_receive {hop : Hop} (hhop : hop ≠ .certificate) :
    Keeps (Aside E) (receive (E := E) env hop) := by
  refine ⟨fun s => Aside.event rfl rfl rfl ?_ (by simp)⟩
  cases hop <;> first | rfl | exact absurd rfl hhop

theorem aside_transition (fn : BattLockStateMachine → BattLockStateMachine × Bool) :
    Keeps (Aside E) (transition (E := E) fn) := by
  refine ⟨fun s => ?_⟩
  unfold transition
  rcases fn s.orchestrator.stateMachine with ⟨stateMachine, b⟩
  cases b with
  | true =>
    refine Aside.event rfl rfl rfl rfl fun o ho => ?_
    injection ho with ho
    rw [← ho]
  | false => exact Aside.refl s

theorem aside_issueCertificate : Keeps (Aside E) (issueCertificate (E := E) env) :=
  aside_bind aside_get fun _ => aside_bind (aside_call _) fun _ => aside_bind (aside_call _)
    fun _ => aside_call _

theorem aside_challengeResponse : Keeps (Aside E) (challengeResponse (E := E) env) := by
  have hchallenge : Keeps (Aside E) (sendChallenge (E := E) env) :=
    ⟨fun _ => Aside.event rfl rfl rfl rfl (by simp)⟩
  have hsign (m : CANMessage) : Keeps (Aside E) (signChallenge (E := E) env m) :=
    ⟨fun s => ⟨rfl, rfl, (Aside.refl s).events⟩⟩
  exact aside_bind hchallenge fun _ => aside_bind (aside_transition _) fun _ =>
    aside_bind (aside_receive (by decide)) fun _ => aside_bind (aside_logCanMessage _) fun _ =>
      aside_bind (hsign _) fun _ => aside_bind (aside_send _) fun _ =>
        aside_bind (aside_receive (by decide)) fun _ => aside_logCanMessage _

theorem aside_checkSignature (m : CANMessage) : Keeps (Aside E) (checkSignature (E := E) m) :=
  ⟨fun _ => Aside.event rfl rfl rfl rfl (by simp)⟩

/-! ## The points of a run -/

variable (E env o₀)

/-- The certificate events so far, and the session manager: the one of before the run or, from
some point on, `manager`. -/
structure Point (manager : SessionManager) (trace : List Event) (s : RunState E) : Prop where
  identity : s.batteryNode.battery.identity.batteryId = ownBatteryId
  sessions : s.orchestrator.sessionManager = manager
  changed : ∀ o, .changed o ∈ s.events →
    o.sessionManager = o₀.sessionManager ∨ o.sessionManager = manager
  certificates : s.events.filter OfCertificate = trace

/-- The session manager with the session of the run. -/
def added : SessionManager := o₀.sessionManager.addSession env.sessionId ownBatteryId

/-- The certificate events of a run that gets as far as the signature. -/
def verified (m : CANMessage) : List Event :=
  [.delivered .certificate (some m), .certificateCheck m (.ok true)]

/-- What holds at the end of a run: a new session is one of the run's own battery, and comes
with a verified certificate. -/
def Settled (events : List Event) : Prop :=
  ∀ o, .changed o ∈ events → o.sessionManager = o₀.sessionManager ∨
    o.sessionManager = added env o₀ ∧ ∃ m, events.filter OfCertificate = verified m

abbrev SettledState (s : RunState E) : Prop := Settled env o₀ s.events

variable {E env o₀} {manager : SessionManager} {trace : List Event} {s s' : RunState E}

theorem Point.aside (h : Aside E s s') (hs : Point E o₀ manager trace s) :
    Point E o₀ manager trace s' := by
  obtain ⟨l, hevents, hl⟩ := h.events
  refine ⟨by rw [h.identity, hs.identity], h.sessions.trans hs.sessions, fun o ho => ?_, ?_⟩
  · rw [hevents] at ho
    rcases List.mem_append.1 ho with ho | ho
    · exact hs.changed o ho
    · exact .inr (((hl _ ho).2 o rfl).trans hs.sessions)
  · have hfilter : l.filter OfCertificate = [] := by
      rw [List.filter_eq_nil_iff]
      intro e he
      simp [(hl e he).1]
    rw [hevents, List.filter_append, hfilter, List.append_nil, hs.certificates]

theorem Point.settled (hs : Point E o₀ o₀.sessionManager trace s) :
    SettledState E env o₀ s := by
  intro o ho
  rcases hs.changed o ho with h | h
  · exact .inl h
  · exact .inl h

theorem Point.settled_added {m : CANMessage}
    (hs : Point E o₀ (added env o₀) (verified m) s) : SettledState E env o₀ s := by
  intro o ho
  rcases hs.changed o ho with h | h
  · exact .inl h
  · exact .inr ⟨h, m, hs.certificates⟩

theorem Point.certificate (hs : Point E o₀ manager trace s) {e : Event}
    (hidentity : s'.batteryNode.battery.identity = s.batteryNode.battery.identity)
    (hsessions : s'.orchestrator.sessionManager = s.orchestrator.sessionManager)
    (hevents : s'.events = s.events ++ [e]) (he : OfCertificate e = true) :
    Point E o₀ manager (trace ++ [e]) s' := by
  refine ⟨by rw [hidentity, hs.identity], hsessions.trans hs.sessions, fun o ho => ?_, ?_⟩
  · rw [hevents] at ho
    rcases List.mem_append.1 ho with ho | ho
    · exact hs.changed o ho
    · rw [← List.mem_singleton.1 ho] at he
      cases he
  · rw [hevents, List.filter_append, hs.certificates]
    simp [he]

theorem triple_before {x : Run E α} (hx : Keeps (Aside E) x) :
    Triple (Point E o₀ o₀.sessionManager trace) x
      (fun _ => Point E o₀ o₀.sessionManager trace) (fun _ => SettledState E env o₀) :=
  (hx.triple fun _ _ h hs => hs.aside h).exits fun _ _ hs => hs.settled

theorem triple_receiveCertificate :
    Triple (Point E o₀ o₀.sessionManager []) (receive env .certificate)
      (fun m => Point E o₀ o₀.sessionManager [.delivered .certificate m])
      (fun _ => SettledState E env o₀) :=
  ⟨fun _ hs => hs.certificate rfl rfl rfl rfl⟩

theorem triple_exchange :
    Triple (Point E o₀ o₀.sessionManager []) (certificateExchange env)
      (fun m => Point E o₀ o₀.sessionManager [.delivered .certificate (some m)])
      (fun _ => SettledState E env o₀) := by
  have hlog (m : Option CANMessage) :
      Triple (Point E o₀ o₀.sessionManager [.delivered .certificate m]) (logCanMessage m)
        (fun m => Point E o₀ o₀.sessionManager [.delivered .certificate (some m)])
        (fun _ => SettledState E env o₀) := by
    cases m with
    | some m => exact Triple.pure fun _ hs => hs
    | none => exact Triple.stop fun _ hs => hs.settled
  exact (triple_before aside_issueCertificate).bind fun _ => (triple_before aside_get).bind fun _ =>
    (triple_before (aside_send _)).bind fun _ =>
      (triple_before (aside_receive (by decide))).bind fun _ =>
        (triple_before (aside_send _)).bind fun _ => triple_receiveCertificate.bind hlog

theorem triple_check [Interpreter] {m : CANMessage} :
    Triple (Point E o₀ o₀.sessionManager [.delivered .certificate (some m)])
      (checkCertificate env m)
      (fun b => Point E o₀ o₀.sessionManager
        [.delivered .certificate (some m), .certificateCheck m (.ok b)])
      (fun _ => SettledState E env o₀) := by
  refine ⟨fun s hs => ?_⟩
  unfold checkCertificate
  rcases s.vehicle.receiveAndVerifyCertificate E m env.verifyTime with ⟨vehicle, r⟩
  have hpoint : Point E o₀ o₀.sessionManager
      ([.delivered .certificate (some m)] ++ [.certificateCheck m r])
      { s with vehicle, events := s.events ++ [.certificateCheck m r] } :=
    hs.certificate rfl rfl rfl rfl
  cases r with
  | ok b => exact hpoint
  | error e => exact hpoint.settled

theorem triple_verification [Interpreter] {m : CANMessage} :
    Triple (Point E o₀ o₀.sessionManager [.delivered .certificate (some m)])
      (certificateVerification env m)
      (fun _ => Point E o₀ o₀.sessionManager (verified m)) (fun _ => SettledState E env o₀) := by
  have habort (b : Bool) :
      Triple (Point E o₀ o₀.sessionManager
          [.delivered .certificate (some m), .certificateCheck m (.ok b)]) (abortUnless b)
        (fun _ => Point E o₀ o₀.sessionManager (verified m))
        (fun _ => SettledState E env o₀) := by
    cases b with
    | true => exact Triple.pure fun _ hs => hs
    | false => exact Triple.stop fun _ hs => hs.settled
  exact (triple_before (aside_transition _)).bind fun _ => triple_check.bind fun b =>
    (habort b).bind fun _ => triple_before (aside_transition _)

theorem triple_addSession {m : CANMessage} {batteryId : Str} (hid : batteryId = ownBatteryId) :
    Triple (Point E o₀ o₀.sessionManager (verified m))
      (addSession (createSession batteryId env.sessionId))
      (fun _ => Point E o₀ (added env o₀) (verified m)) (fun _ => SettledState E env o₀) := by
  subst hid
  refine ⟨fun s hs => ⟨hs.identity, ?_, fun o ho => ?_, ?_⟩⟩
  · rw [added, ← hs.sessions]
    rfl
  · rcases List.mem_append.1 ho with ho | ho
    · exact .inl ((hs.changed o ho).elim id id)
    · have ho : o = _ := Event.changed.inj (List.mem_singleton.1 ho)
      rw [ho, added, ← hs.sessions]
      exact .inr rfl
  · show List.filter _ (s.events ++ [_]) = _
    rw [List.filter_append, hs.certificates]
    rfl

theorem triple_after {x : Run E α} {m : CANMessage} (hx : Keeps (Aside E) x) :
    Triple (Point E o₀ (added env o₀) (verified m)) x
      (fun _ => Point E o₀ (added env o₀) (verified m)) (fun _ => SettledState E env o₀) :=
  (hx.triple fun _ _ h hs => hs.aside h).exits fun _ _ hs => hs.settled_added

theorem triple_establish {m : CANMessage} :
    Triple (Point E o₀ o₀.sessionManager (verified m)) (establishSession env)
      (fun _ => SettledState E env o₀) (fun _ => SettledState E env o₀) := by
  -- the session is made from the identity that is read here
  have hread : Triple (Point E o₀ o₀.sessionManager (verified m))
      (Prog.get : Run E (RunState E))
      (fun s s' => s.batteryNode.battery.identity.batteryId = ownBatteryId ∧
        Point E o₀ o₀.sessionManager (verified m) s')
      (fun _ => SettledState E env o₀) := Triple.get fun _ hs => ⟨hs.identity, hs⟩
  have hadd (s : RunState E) : Triple
      (fun s' => s.batteryNode.battery.identity.batteryId = ownBatteryId ∧
        Point E o₀ o₀.sessionManager (verified m) s')
      (addSession (createSession s.batteryNode.battery.identity.batteryId env.sessionId))
      (fun _ => Point E o₀ (added env o₀) (verified m)) (fun _ => SettledState E env o₀) :=
    ⟨fun s' hs => (triple_addSession hs.1).post s' hs.2⟩
  exact (triple_before (aside_transition _)).bind fun _ => hread.bind fun s => (hadd s).bind
    fun _ => (triple_after (aside_call _)).bind fun _ => (triple_after (aside_send _)).bind
    fun _ => (triple_after (aside_receive (by decide))).bind fun _ =>
      (triple_after (aside_logCanMessage _)).bind fun _ => (triple_after (aside_call _)).bind
    fun _ => (triple_after (aside_transition _)).bind fun _ => (triple_after aside_get).bind
    fun _ => (triple_after (aside_call _)).results fun _ _ hs => hs.settled_added

theorem handshake_settled [Interpreter] :
    Triple (fun s => s = startup (E := E) env o₀) (handshake env)
      (fun _ => SettledState E env o₀) (fun _ => SettledState E env o₀) := by
  have hstart : ∀ s, s = startup (E := E) env o₀ → Point E o₀ o₀.sessionManager [] s := by
    intro s hs
    subst hs
    exact ⟨rfl, rfl, fun _ ho => absurd ho List.not_mem_nil, rfl⟩
  have hhandshake : Triple (Point E o₀ o₀.sessionManager []) (handshake env)
      (fun _ => SettledState E env o₀) (fun _ => SettledState E env o₀) := by
    refine triple_exchange.bind fun m => triple_verification.bind fun _ =>
      (triple_before aside_challengeResponse).bind fun _ =>
        (triple_before (aside_checkSignature _)).bind fun result => ?_
    cases result with
    | true => exact triple_establish
    | false => exact Triple.pure fun _ hs => hs.settled
  exact hhandshake.pre hstart

theorem settled_run [Interpreter] : Settled env o₀ (run E env o₀).2 := by
  have h : SettledState E env o₀ (handshake env (startup (E := E) env o₀)).1 :=
    handshake_settled.final rfl
  simpa only [run] using h

/-! ## The recorded identity -/

variable {o : Orchestrator}

/-- A new session is recorded for the run's own battery, and one certificate was delivered and
verified before it. -/
theorem new_session [Interpreter] (ho : .changed o ∈ (run E env o₀).2)
    (hnew : o.sessionManager ≠ o₀.sessionManager) :
    o.sessionManager.getBattery env.sessionId = some ownBatteryId ∧
      ∃ m, (run E env o₀).2.filter OfCertificate = verified m := by
  rcases settled_run o ho with h | ⟨h, hcertificates⟩
  · exact absurd h hnew
  · refine ⟨?_, hcertificates⟩
    rw [h]
    exact dictGet_setItem _ _ _

theorem mem_of_filter {events : List Event} {m : CANMessage} {e : Event}
    (hevents : events.filter OfCertificate = verified m) (he : OfCertificate e = true) :
    e ∈ events ↔ e = .delivered .certificate (some m) ∨ e = .certificateCheck m (.ok true) := by
  have hmem : e ∈ events ↔ e ∈ events.filter OfCertificate := by simp [he]
  rw [hmem, hevents]
  simp [verified]

/-- **When the recorded battery is the authenticated one**: a session that a run adds is recorded
for the battery id of the certificate verified in that run if and only if the certificate
delivered to the vehicle names the battery of the run. -/
theorem recordsVerified_iff [Interpreter] (ho : .changed o ∈ (run E env o₀).2)
    (hnew : o.sessionManager ≠ o₀.sessionManager) :
    RecordsVerified env (run E env o₀).2 o ↔ DeliversOwn (run E env o₀).2 := by
  obtain ⟨hbattery, m, hevents⟩ := new_session ho hnew
  constructor
  · intro h
    obtain ⟨message, batteryId, hcheck, hid, hget⟩ := h
    rcases (mem_of_filter hevents rfl).1 hcheck with h | h
    · cases h
    · injection h with hm
      subst hm
      rw [← hget, hbattery] at hid
      exact ⟨message, (mem_of_filter hevents rfl).2 (.inl rfl), hid⟩
  · intro h
    obtain ⟨message, hdelivered, hid⟩ := h
    rcases (mem_of_filter hevents rfl).1 hdelivered with h | h
    · injection h with _ hm
      injection hm with hm
      subst hm
      exact ⟨message, ownBatteryId, (mem_of_filter hevents rfl).2 (.inr rfl), hid, hbattery⟩
    · cases h

/-! ## A certificate split elsewhere -/

/-- What a run of `honestEnv` leaves: a session of the run's battery. -/
def activeOrchestrator : Orchestrator where
  sessionManager := ⟨[(Str.ofString "a1", ownBatteryId)]⟩
  stateMachine := ⟨.activeSession⟩

/-- The certificate issued in that run. -/
def honestCertificate : Certificate Str where
  batteryId := Str.ofString "BAT001"
  manufacturerId := Str.ofString "BATTLOCK"
  publicKey := [9]
  issueDate := Str.ofString "2026-06-01"
  expiryDate := Str.ofString "2027-06-01"
  signature := 7 :: (encodeChars "BAT001BATTLOCK".toList ++ [9] ++
    encodeChars "2026-06-012027-06-01".toList)

open CPython in
theorem run_honest : (run plainEcdsa honestEnv {}).1 = activeOrchestrator ∧
    .changed activeOrchestrator ∈ (run plainEcdsa honestEnv {}).2 ∧
    .delivered .certificate (some (encodeCertificate honestCertificate)) ∈
      (run plainEcdsa honestEnv {}).2 := by
  decide +kernel

open CPython in
/-- Delivered as it is, it names the recorded battery. -/
theorem recordsVerified_honest :
    RecordsVerified honestEnv (run plainEcdsa honestEnv {}).2 activeOrchestrator := by
  obtain ⟨-, hchanged, hdelivered⟩ := run_honest
  have hid : certifiedBatteryId (encodeCertificate honestCertificate) = some ownBatteryId := by
    rw [certifiedBatteryId, decodeCertificate_encodeCertificate]
    decide +kernel
  exact (recordsVerified_iff hchanged (by decide)).2 ⟨_, hdelivered, hid⟩

/-- A letter has moved from the manufacturer to the battery id. -/
def resplitCertificate : Certificate Str :=
  { honestCertificate with
    batteryId := Str.ofString "BAT001B"
    manufacturerId := Str.ofString "ATTLOCK" }

/-- The adversary puts it in the place of the certificate. -/
def resplitEnv : RunEnv UInt8 :=
  { honestEnv with
    adversary := fun hop queue =>
      match hop with
      | .certificate => [encodeCertificate resplitCertificate]
      | _ => queue }

open CPython in
/-- The vehicle verifies a certificate of `BAT001B`, and the session is recorded for `BAT001`. -/
theorem not_recordsVerified_resplit :
    .changed activeOrchestrator ∈ (run plainEcdsa resplitEnv {}).2 ∧
      activeOrchestrator.sessionManager ≠ ({} : Orchestrator).sessionManager ∧
      ¬ RecordsVerified resplitEnv (run plainEcdsa resplitEnv {}).2 activeOrchestrator := by
  have hrun : .changed activeOrchestrator ∈ (run plainEcdsa resplitEnv {}).2 ∧
      (run plainEcdsa resplitEnv {}).2.filter OfCertificate =
        verified (encodeCertificate resplitCertificate) := by decide +kernel
  have hsplit : certifiedBatteryId (encodeCertificate resplitCertificate) =
      some (Str.ofString "BAT001B") := by
    rw [certifiedBatteryId, decodeCertificate_encodeCertificate]
    decide +kernel
  have hget : activeOrchestrator.sessionManager.getBattery resplitEnv.sessionId =
      some (Str.ofString "BAT001") := by decide
  refine ⟨hrun.1, by decide, fun h => ?_⟩
  obtain ⟨message, batteryId, hcheck, hid, hbattery⟩ := h
  rcases (mem_of_filter hrun.2 rfl).1 hcheck with h | h
  · cases h
  · injection h with hm
    subst hm
    have hsame : some (Str.ofString "BAT001") = some (Str.ofString "BAT001B") := by
      rw [← hget, hbattery, ← hid, hsplit]
    exact absurd hsame (by decide)

end BattLock.Orchestrator
