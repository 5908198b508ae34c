import BattLock.Hardware.Proof.VehicleStep

/-!
# What a session of the vehicle rests on

`vehicle.ino` acts on a complete signature in any state, and checks it over its own first 32 bytes.
`activation_iff` says when a session is nevertheless earned (`Justified`): the certificate in
`cert_raw` was accepted, a nonce was sent after that, and the signature was verified over that
nonce under the key of that certificate. The condition is about the inputs: whenever a signature
arrives that verifies over its own first 32 bytes, these bytes are the challenge outstanding
(`challenge`).
-/

namespace BattLock.Hardware

open CArray Python Transport

/-! ## What the events of a run say -/

/-- The last check of a certificate, and the nonce frames sent since. -/
structure LastCheck where
  certRaw : Vector UInt8 battlockCertLen
  cert : BattLockCert
  accepted : Bool
  challenge : List CanFrame

namespace LastCheck

/-- One more event. -/
def note (last : Option LastCheck) : Event → Option LastCheck
  | .certificateCheck certRaw cert accepted => some ⟨certRaw, cert, accepted, []⟩
  | .sent frame => last.map fun check =>
    if frame.id = canIdNonce then { check with challenge := check.challenge ++ [frame] } else check
  | _ => last

def ofEvents (events : List Event) : Option LastCheck := events.foldl note none

theorem ofEvents_append (l₁ l₂ : List Event) :
    ofEvents (l₁ ++ l₂) = l₂.foldl note (ofEvents l₁) := List.foldl_append

theorem foldl_sent {frames : List CanFrame} (h : ∀ f ∈ frames, f.id = canIdNonce)
    (check : LastCheck) : (frames.map Event.sent).foldl note (some check) =
      some { check with challenge := check.challenge ++ frames } := by
  induction frames generalizing check with
  | nil => simp
  | cons f frames ih =>
    have hf : f.id = canIdNonce := h f List.mem_cons_self
    rw [List.map_cons, List.foldl_cons, note, Option.map_some, if_pos hf,
      ih (fun g hg => h g (List.mem_cons_of_mem _ hg))]
    simp

theorem foldl_canSend {frame : CanFrame} (h : frame.id ≠ canIdNonce) (accept : CanFrame → Bool)
    (last : Option LastCheck) : (canSend accept frame).foldl note last = last := by
  unfold canSend
  split
  · simp [note, h]
  · rfl

theorem foldl_report {events : List Event} (h : ∀ e ∈ events, ∃ r, e = .report r)
    (last : Option LastCheck) : events.foldl note last = last := by
  induction events with
  | nil => rfl
  | cons e events ih =>
    obtain ⟨r, rfl⟩ := h e List.mem_cons_self
    exact ih fun e he => h e (List.mem_cons_of_mem _ he)

end LastCheck

/-- After the events `before`, in the state `v`, a call of `loop()` with the events `events` has
what a session needs. -/
def Justified (v : Vehicle) (before events : List Event) : Prop :=
  ∃ check nonce sig, LastCheck.ofEvents before = some check ∧ check.certRaw = v.certRaw ∧
    check.accepted = true ∧ check.challenge = payloadFrames canIdNonce nonce.toList ∧
    .signatureCheck nonce sig check.cert.publicKey true ∈ events

/-! ## The challenge outstanding -/

section
variable (C : Crypto) (rootCaPublicKey : Vector UInt8 65)

/-- A complete certificate ends the challenge there was, and starts a new one if it is accepted
and the controller takes the frames of the nonce. -/
def nextChallenge (v : Vehicle) (outstanding : Option (Vector UInt8 battlockNonceLen))
    (input : VehicleInput) : Option (Vector UInt8 battlockNonceLen) :=
  match v.arrival input with
  | .certificate raw =>
    let nonce := Vehicle.nonceOf input.millis
    if verifyCertificate C rootCaPublicKey (certView raw input.beyond) &&
        (payloadFrames canIdNonce nonce.toList).all input.accept then some nonce
    else none
  | _ => outstanding

/-- The challenge outstanding after a sequence of inputs. -/
def challenge (v : Vehicle) (outstanding : Option (Vector UInt8 battlockNonceLen)) :
    List VehicleInput → Option (Vector UInt8 battlockNonceLen)
  | [] => outstanding
  | i :: is => challenge (v.loop C rootCaPublicKey i).1
    (nextChallenge C rootCaPublicKey v outstanding i) is

theorem challenge_concat (v : Vehicle) (g : Option (Vector UInt8 battlockNonceLen))
    (is : List VehicleInput) (i : VehicleInput) :
    challenge C rootCaPublicKey v g (is ++ [i]) =
      nextChallenge C rootCaPublicKey ((Vehicle.machine C rootCaPublicKey).run v is)
        (challenge C rootCaPublicKey v g is) i := by
  induction is generalizing v g with
  | nil => rfl
  | cons j is ih => exact ih _ _

end

/-! ## The frames of a nonce -/

theorem payloadFrames_inj {id : UInt32} {p q : Bytes} (hp : p.length ≤ transportMax)
    (hlen : p.length = q.length) (h : payloadFrames id p = payloadFrames id q) : p = q := by
  have hp' := (holds_payloadFrames id hp {}).buffer_eq
  have hq' := (holds_payloadFrames id (p := q) (hlen ▸ hp) {}).buffer_eq
  rw [h, hlen, hq'] at hp'
  exact hp'.symm

theorem sendNonce_eq (accept : CanFrame → Bool) (nonce : Vector UInt8 battlockNonceLen) :
    Vehicle.sendNonce accept nonce =
      (payloadFrames canIdNonce nonce.toList).takeWhile accept := by
  have hlen : nonce.toList.length = battlockNonceLen := Vector.length_toList
  have h := sendPayload_eq accept canIdNonce (p := nonce.toList) (by rw [hlen]; decide)
  rw [hlen] at h
  rw [Vehicle.sendNonce, h]

/-- The frames taken are those of a nonce only if all were taken and it is the nonce sent. -/
theorem takeWhile_eq_iff {accept : CanFrame → Bool} {nonce nonce' : Vector UInt8 battlockNonceLen} :
    (payloadFrames canIdNonce nonce.toList).takeWhile accept =
        payloadFrames canIdNonce nonce'.toList ↔
      (payloadFrames canIdNonce nonce.toList).all accept = true ∧ nonce = nonce' := by
  have hlen (n : Vector UInt8 battlockNonceLen) : n.toList.length = battlockNonceLen :=
    Vector.length_toList
  have hframes (n : Vector UInt8 battlockNonceLen) :
      (payloadFrames canIdNonce n.toList).length = frameCount battlockNonceLen := by
    rw [payloadFrames, List.length_map, List.length_range, hlen]
  constructor
  · intro h
    have hwhole : (payloadFrames canIdNonce nonce.toList).takeWhile accept =
        payloadFrames canIdNonce nonce.toList :=
      (List.takeWhile_prefix accept).eq_of_length (by rw [h, hframes, hframes])
    rw [hwhole] at h
    refine ⟨List.all_eq_true.2 (List.takeWhile_eq_self_iff.1 hwhole), Vector.toList_inj.1 ?_⟩
    exact payloadFrames_inj (by rw [hlen]; decide) (by rw [hlen, hlen]) h
  · rintro ⟨hall, rfl⟩
    exact List.takeWhile_eq_self_iff.2 (List.all_eq_true.1 hall)

/-! ## The invariant -/

/-- What the events so far, the vehicle and the challenge outstanding have to do with each other. -/
structure Tracked (before : List Event) (v : Vehicle)
    (g : Option (Vector UInt8 battlockNonceLen)) : Prop where
  stored : ∀ check, LastCheck.ofEvents before = some check →
    check.certRaw = v.certRaw ∧ check.cert.publicKey = sub v.certRaw 21 65
  outstanding : ∀ nonce, g = some nonce ↔ ∃ check, LastCheck.ofEvents before = some check ∧
    check.accepted = true ∧ check.challenge = payloadFrames canIdNonce nonce.toList

section
variable {C : Crypto} {rootCaPublicKey : Vector UInt8 65} {before : List Event} {v : Vehicle}
  {g : Option (Vector UInt8 battlockNonceLen)} {input : VehicleInput}

theorem Tracked.keep (h : Tracked before v g) {v' : Vehicle} {events : List Event}
    (hraw : v'.certRaw = v.certRaw) (hevents : ∀ last, events.foldl LastCheck.note last = last) :
    Tracked (before ++ events) v' g where
  stored check hcheck := by
    rw [LastCheck.ofEvents_append, hevents] at hcheck
    rw [hraw]
    exact h.stored check hcheck
  outstanding nonce := by
    rw [LastCheck.ofEvents_append, hevents]
    exact h.outstanding nonce

theorem Tracked.check {v' : Vehicle} {events : List Event} {check : LastCheck}
    (hevents : ∀ last, events.foldl LastCheck.note last = some check)
    (hraw : check.certRaw = v'.certRaw) (hkey : check.cert.publicKey = sub v'.certRaw 21 65)
    (hg : ∀ nonce, g = some nonce ↔ check.accepted = true ∧
      check.challenge = payloadFrames canIdNonce nonce.toList) :
    Tracked (before ++ events) v' g where
  stored check' hcheck := by
    rw [LastCheck.ofEvents_append, hevents, Option.some.injEq] at hcheck
    subst hcheck
    exact ⟨hraw, hkey⟩
  outstanding nonce := by
    rw [LastCheck.ofEvents_append, hevents, hg]
    simp

theorem Tracked.step (h : Tracked before v g) {v' : Vehicle} {events : List Event}
    (hstep : Vehicle.Step C rootCaPublicKey v input v' events) :
    Tracked (before ++ events) v' (nextChallenge C rootCaPublicKey v g input) := by
  unfold nextChallenge
  cases hstep with
  | other harrival _ hraw hevents =>
    rw [harrival]
    exact h.keep hraw (LastCheck.foldl_report hevents)
  | request harrival _ hraw =>
    rw [harrival]
    exact h.keep hraw (fun _ => rfl)
  | @certified raw harrival hverify _ hraw =>
    rw [harrival]
    have hsent : ∀ f ∈ Vehicle.sendNonce input.accept (Vehicle.nonceOf input.millis),
        f.id = canIdNonce := by
      intro f hf
      rw [sendNonce_eq] at hf
      obtain ⟨i, -, rfl⟩ := List.mem_map.1 ((List.takeWhile_prefix _).subset hf)
      exact id_payloadFrame
    let check : LastCheck := ⟨raw, certView raw input.beyond, true,
      Vehicle.sendNonce input.accept (Vehicle.nonceOf input.millis)⟩
    have hkey : check.cert.publicKey = sub v'.certRaw 21 65 := by
      rw [hraw]
      exact publicKey_certView _ _
    refine Tracked.check (fun last => ?_) (show check.certRaw = v'.certRaw from hraw.symm) hkey
      (fun nonce => ?_)
    · rw [List.foldl_append, List.foldl_append]
      exact congrArg (List.foldl LastCheck.note · _) (LastCheck.foldl_sent hsent _)
    · simp only [check]
      rw [sendNonce_eq, takeWhile_eq_iff]
      simp [hverify]
  | rejected harrival hverify _ hraw =>
    rw [harrival]
    simp only [hverify, Bool.false_and, Bool.false_eq_true, ↓reduceIte]
    exact Tracked.check (fun _ => rfl) hraw.symm (by rw [hraw]; exact publicKey_certView _ _)
      (by simp)
  | activated harrival hverify _ hraw =>
    rw [harrival]
    refine h.keep hraw (fun last => ?_)
    rw [List.foldl_append, List.foldl_append, List.foldl_append,
      LastCheck.foldl_canSend (by decide), LastCheck.foldl_canSend (by decide)]
    rfl
  | refused harrival hverify _ hraw =>
    rw [harrival]
    refine h.keep hraw (fun last => ?_)
    rw [List.foldl_append, LastCheck.foldl_canSend (by decide)]
    rfl

/-! ## Sessions -/

theorem Vehicle.Step.activates {v' : Vehicle} {events : List Event}
    (hstep : Vehicle.Step C rootCaPublicKey v input v' events)
    (h : .assigned .activeSession ∈ events) :
    ∃ sig, v.arrival input = .signature sig ∧
      C.ecdsaVerify (sub sig 0 32) sig (sub v.certRaw 21 65) = true := by
  have hstates : .activeSession ∈ Event.states events := List.mem_filterMap.2 ⟨_, h, rfl⟩
  rw [hstep.states.1, Vehicle.assigns] at hstates
  cases harrival : v.arrival input with
  | other => simp [harrival] at hstates
  | request => simp [harrival] at hstates
  | certificate raw =>
    simp only [harrival] at hstates
    split at hstates <;> simp at hstates
  | signature sig =>
    refine ⟨sig, rfl, ?_⟩
    simp only [harrival] at hstates
    split at hstates
    · assumption
    · simp at hstates

/-- The events of a call that opens a session: one check of a signature, over its own start. -/
theorem Vehicle.Step.verifies {v' : Vehicle} {events : List Event}
    (hstep : Vehicle.Step C rootCaPublicKey v input v' events)
    {sig : Vector UInt8 battlockSigLen} (harrival : v.arrival input = .signature sig)
    (hverify : C.ecdsaVerify (sub sig 0 32) sig (sub v.certRaw 21 65) = true) :
    .assigned .activeSession ∈ events ∧
      ∀ message signature key, .signatureCheck message signature key true ∈ events ↔
        message = sub sig 0 32 ∧ signature = sig ∧ key = sub v.certRaw 21 65 := by
  cases hstep with
  | activated harrival' hverify' =>
    rw [harrival'] at harrival
    cases harrival
    refine ⟨by simp, fun message signature key => ?_⟩
    simp only [Event.canSend_eq, List.cons_append, List.nil_append, List.append_assoc,
      List.mem_cons, List.mem_append, List.mem_map, reduceCtorEq, and_false, exists_false,
      List.not_mem_nil, or_false, false_or]
    constructor
    · intro h
      injection h with hmessage hsignature hkey
      exact ⟨hmessage, hsignature, hkey⟩
    · rintro ⟨rfl, rfl, rfl⟩
      rfl
  | refused harrival' hverify' =>
    rw [harrival'] at harrival
    cases harrival
    rw [hverify] at hverify'
    cases hverify'
  | other harrival' => rw [harrival'] at harrival; cases harrival
  | request harrival' => rw [harrival'] at harrival; cases harrival
  | certified harrival' => rw [harrival'] at harrival; cases harrival
  | rejected harrival' => rw [harrival'] at harrival; cases harrival

theorem Tracked.justified_iff (h : Tracked before v g) {v' : Vehicle} {events : List Event}
    (hstep : Vehicle.Step C rootCaPublicKey v input v' events) :
    (.assigned .activeSession ∈ events → Justified v before events) ↔
      ∀ sig, v.arrival input = .signature sig →
        C.ecdsaVerify (sub sig 0 32) sig (sub v.certRaw 21 65) = true →
          g = some (sub sig 0 32) := by
  constructor
  · intro hjustified sig harrival hverify
    obtain ⟨hactive, hchecks⟩ := hstep.verifies harrival hverify
    obtain ⟨check, nonce, sig', hlast, -, haccepted, hchallenge, hcheck⟩ := hjustified hactive
    obtain ⟨rfl, -, -⟩ := (hchecks _ _ _).1 hcheck
    exact (h.outstanding _).2 ⟨check, hlast, haccepted, hchallenge⟩
  · intro hguard hactive
    obtain ⟨sig, harrival, hverify⟩ := hstep.activates hactive
    obtain ⟨-, hchecks⟩ := hstep.verifies harrival hverify
    obtain ⟨check, hlast, haccepted, hchallenge⟩ :=
      (h.outstanding _).1 (hguard sig harrival hverify)
    obtain ⟨hraw, hkey⟩ := h.stored check hlast
    exact ⟨check, sub sig 0 32, sig, hlast, hraw, haccepted, hchallenge,
      (hchecks _ _ _).2 ⟨rfl, rfl, hkey⟩⟩

end

variable (C : Crypto) (rootCaPublicKey : Vector UInt8 65)

/-- The events of a run of the vehicle. -/
def vehicleEvents (inputs : List VehicleInput) : List Event :=
  ((Vehicle.machine C rootCaPublicKey).log {} inputs).flatMap Prod.snd

theorem tracked_run (inputs : List VehicleInput) :
    Tracked (vehicleEvents C rootCaPublicKey inputs)
      ((Vehicle.machine C rootCaPublicKey).run {} inputs)
      (challenge C rootCaPublicKey {} none inputs) := by
  induction inputs using List.reverseRecOn with
  | nil =>
    have hnone : LastCheck.ofEvents (vehicleEvents C rootCaPublicKey []) = none := rfl
    refine ⟨fun check h => ?_, fun nonce => ?_⟩
    · rw [hnone] at h
      cases h
    · rw [hnone]
      simp [challenge]
  | append_singleton is i ih =>
    rw [challenge_concat, vehicleEvents, Mealy.log_concat, List.flatMap_append, Mealy.run_append,
      List.flatMap_singleton]
    exact ih.step (Vehicle.loop_step C rootCaPublicKey _ i)

/-- **When the vehicle's sessions are earned**: in a run, every session is justified if and only
if every signature that verifies over its own first 32 bytes begins with the challenge
outstanding. -/
theorem activation_iff (inputs : List VehicleInput) :
    (∀ is₁ i is₂, inputs = is₁ ++ i :: is₂ →
      .assigned .activeSession ∈ ((Vehicle.machine C rootCaPublicKey).step
        ((Vehicle.machine C rootCaPublicKey).run {} is₁) i).2 →
      Justified ((Vehicle.machine C rootCaPublicKey).run {} is₁)
        (vehicleEvents C rootCaPublicKey is₁)
        ((Vehicle.machine C rootCaPublicKey).step
          ((Vehicle.machine C rootCaPublicKey).run {} is₁) i).2) ↔
    (∀ is₁ i is₂, inputs = is₁ ++ i :: is₂ →
      ∀ sig, ((Vehicle.machine C rootCaPublicKey).run {} is₁).arrival i = .signature sig →
        C.ecdsaVerify (sub sig 0 32) sig
          (sub ((Vehicle.machine C rootCaPublicKey).run {} is₁).certRaw 21 65) = true →
        challenge C rootCaPublicKey {} none is₁ = some (sub sig 0 32)) := by
  refine forall_congr' fun is₁ => forall_congr' fun i => forall_congr' fun is₂ =>
    forall_congr' fun _ => ?_
  exact (tracked_run C rootCaPublicKey is₁).justified_iff
    (Vehicle.loop_step C rootCaPublicKey _ i)

/-- A session without any certificate. -/
theorem not_justified_unguarded :
    ¬ ∀ is₁ i is₂, (List.range 10).map signatureInput = is₁ ++ i :: is₂ →
      .assigned .activeSession ∈ ((Vehicle.machine acceptingCrypto (Vector.replicate 65 0)).step
        ((Vehicle.machine acceptingCrypto (Vector.replicate 65 0)).run {} is₁) i).2 →
      Justified ((Vehicle.machine acceptingCrypto (Vector.replicate 65 0)).run {} is₁)
        (vehicleEvents acceptingCrypto (Vector.replicate 65 0) is₁)
        ((Vehicle.machine acceptingCrypto (Vector.replicate 65 0)).step
          ((Vehicle.machine acceptingCrypto (Vector.replicate 65 0)).run {} is₁) i).2 := by
  intro h
  obtain ⟨check, -, -, hlast, -⟩ := h ((List.range 9).map signatureInput) (signatureInput 9) [] rfl
    (by decide +kernel)
  have hnone : (LastCheck.ofEvents (vehicleEvents acceptingCrypto (Vector.replicate 65 0)
      ((List.range 9).map signatureInput))).isSome = false := by
    decide +kernel
  rw [hlast] at hnone
  cases hnone

end BattLock.Hardware
