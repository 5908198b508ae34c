import BattLock.Hardware.Proof.SendPayload
import BattLock.Hardware.Vehicle

/-!
# What a call of the vehicle's `loop()` can do

`arrival` says what an input completes: an authentication request, a certificate, a signature, or
nothing the handshake depends on. `loop_step` lists, for each of them, the events of the call and
what it leaves in `state`, `cert_raw` and `nonce`; what is proved about runs of the vehicle is
proved from this list.
-/

namespace BattLock.Hardware

open CArray Python

theorem publicKey_certView (certRaw : Vector UInt8 battlockCertLen) (beyond : Vector UInt8 2) :
    (certView certRaw beyond).publicKey = sub certRaw 21 65 :=
  sub_append_left certRaw beyond (by decide)

namespace Vehicle

inductive Arrival
  | other
  | request
  | certificate (raw : Vector UInt8 battlockCertLen)
  | signature (sig : Vector UInt8 battlockSigLen)
deriving DecidableEq

/-- What the frame of an input completes. -/
def arrival (v : Vehicle) (input : VehicleInput) : Arrival :=
  match input.frame with
  | none => .other
  | some frame =>
    if frame.id = canIdAuthRequest then .request
    else if frame.id = canIdCertificate then
      let (reass, complete) := v.certReass.feed frame.data frame.len
      if complete ∧ reass.len.toNat = battlockCertLen then
        .certificate (sub reass.buffer 0 battlockCertLen)
      else .other
    else if frame.id = canIdSignature then
      let (reass, complete) := v.sigReass.feed frame.data frame.len
      if complete ∧ reass.len.toNat = battlockSigLen then
        .signature (sub reass.buffer 0 battlockSigLen)
      else .other
    else .other

variable (C : Crypto) (rootCaPublicKey : Vector UInt8 65)

/-- A call of `loop()` that leaves `v'` and the events of the last argument. -/
inductive Step (v : Vehicle) (input : VehicleInput) : Vehicle → List Event → Prop
  | other {v' : Vehicle} {events : List Event} :
      v.arrival input = .other → v'.state = v.state → v'.certRaw = v.certRaw →
      (∀ e ∈ events, ∃ r, e = .report r) → Step v input v' events
  | request {v' : Vehicle} :
      v.arrival input = .request → v'.state = .helloReceived → v'.certRaw = v.certRaw →
      Step v input v' [.assigned .helloReceived]
  | certified {v' : Vehicle} {raw : Vector UInt8 battlockCertLen} :
      v.arrival input = .certificate raw →
      verifyCertificate C rootCaPublicKey (certView raw input.beyond) = true →
      v'.state = .challengeSent → v'.certRaw = raw →
      Step v input v' ([.copied ⟨battlockCertLen, transportMax, battlockCertLen⟩,
        .certificateCheck raw (certView raw input.beyond) true, .assigned .certVerified] ++
          (sendNonce input.accept (nonceOf input.millis)).map .sent ++ [.assigned .challengeSent])
  | rejected {v' : Vehicle} {raw : Vector UInt8 battlockCertLen} :
      v.arrival input = .certificate raw →
      verifyCertificate C rootCaPublicKey (certView raw input.beyond) = false →
      v'.state = .disconnected → v'.certRaw = raw →
      Step v input v' [.copied ⟨battlockCertLen, transportMax, battlockCertLen⟩,
        .certificateCheck raw (certView raw input.beyond) false, .assigned .disconnected]
  | activated {v' : Vehicle} {sig : Vector UInt8 battlockSigLen} :
      v.arrival input = .signature sig →
      C.ecdsaVerify (sub sig 0 32) sig (sub v.certRaw 21 65) = true →
      v'.state = .activeSession → v'.certRaw = v.certRaw →
      Step v input v' ([.copied ⟨battlockSigLen, transportMax, battlockSigLen⟩,
        .signatureCheck (sub sig 0 32) sig (sub v.certRaw 21 65) true,
          .assigned .authenticated] ++
        canSend input.accept (.ofBytes canIdAuthResult [1]) ++
        canSend input.accept
          (.ofBytes canIdSessionId [0xAA, 0xBB, 0xCC, 0xDD, 0x01, 0x02, 0x03, 0x04]) ++
        [.assigned .activeSession])
  | refused {v' : Vehicle} {sig : Vector UInt8 battlockSigLen} :
      v.arrival input = .signature sig →
      C.ecdsaVerify (sub sig 0 32) sig (sub v.certRaw 21 65) = false →
      v'.state = .disconnected → v'.certRaw = v.certRaw →
      Step v input v' ([.copied ⟨battlockSigLen, transportMax, battlockSigLen⟩,
        .signatureCheck (sub sig 0 32) sig (sub v.certRaw 21 65) false,
          .assigned .disconnected] ++
        canSend input.accept (.ofBytes canIdAuthResult [0]))

variable {v : Vehicle} {input : VehicleInput} {frame : CanFrame}

/-! ## The parts of `loop()` -/

/-- The telemetry checks have no part in the handshake. -/
theorem handleStatusB_spec (v : Vehicle) (data : Vector UInt8 8) :
    (v.handleStatusB data).1.state = v.state ∧ (v.handleStatusB data).1.certRaw = v.certRaw ∧
      ∀ e ∈ (v.handleStatusB data).2, ∃ r, e = .report r := by
  unfold handleStatusB
  dsimp only
  split
  · simp
  · split
    · simp
    · simp

theorem certificateCase_step (hf : input.frame = some frame) (hid : frame.id = canIdCertificate) :
    Step C rootCaPublicKey v input (v.certificateCase C rootCaPublicKey frame input).1
      (v.certificateCase C rootCaPublicKey frame input).2 := by
  have hne : canIdCertificate ≠ canIdAuthRequest := by decide
  have harrival : v.arrival input = if (v.certReass.feed frame.data frame.len).2 = true ∧
      (v.certReass.feed frame.data frame.len).1.len.toNat = battlockCertLen then
        .certificate (sub (v.certReass.feed frame.data frame.len).1.buffer 0 battlockCertLen)
      else .other := by
    simp only [arrival, hf, hid, hne, ↓reduceIte]
  unfold certificateCase
  cases hfeed : v.certReass.feed frame.data frame.len with
  | mk reass complete =>
    rw [hfeed] at harrival
    cases complete with
    | false => exact .other (by rw [harrival]; simp) rfl rfl (by simp)
    | true =>
      by_cases hlen : reass.len.toNat = battlockCertLen
      · have harrival' : v.arrival input =
            .certificate (copyBytes v.certRaw 0 reass.buffer 0 battlockCertLen) := by
          rw [harrival, if_pos ⟨rfl, hlen⟩, copyBytes_all (by decide)]
        simp only [hlen, ↓reduceIte, onCertificate]
        split
        · rename_i hverify
          exact .certified harrival' hverify rfl rfl
        · rename_i hverify
          exact .rejected harrival' (Bool.eq_false_iff.2 hverify) rfl rfl
      · simp only [hlen, ↓reduceIte]
        exact .other (by rw [harrival, if_neg (by simp [hlen])]) rfl rfl (by simp)

/-- The message is the start of the buffer, so of the signature. -/
theorem onSignature_eq (v : Vehicle) (reass : BattLockReassembly) (input : VehicleInput) :
    v.onSignature C reass input =
      let sig := sub reass.buffer 0 battlockSigLen
      if C.ecdsaVerify (sub sig 0 32) sig (sub v.certRaw 21 65) then
        ({ v with sigRaw := sig, state := .activeSession, lastCounter := 0 },
          [.copied ⟨battlockSigLen, transportMax, battlockSigLen⟩,
            .signatureCheck (sub sig 0 32) sig (sub v.certRaw 21 65) true,
              .assigned .authenticated] ++
            canSend input.accept (.ofBytes canIdAuthResult [1]) ++
            canSend input.accept
              (.ofBytes canIdSessionId [0xAA, 0xBB, 0xCC, 0xDD, 0x01, 0x02, 0x03, 0x04]) ++
            [.assigned .activeSession])
      else
        ({ v with sigRaw := sig, state := .disconnected },
          [.copied ⟨battlockSigLen, transportMax, battlockSigLen⟩,
            .signatureCheck (sub sig 0 32) sig (sub v.certRaw 21 65) false,
              .assigned .disconnected] ++
            canSend input.accept (.ofBytes canIdAuthResult [0])) := by
  have hsig : copyBytes v.sigRaw 0 reass.buffer 0 battlockSigLen =
      sub reass.buffer 0 battlockSigLen := copyBytes_all (by decide)
  have hmessage : sub (sub reass.buffer 0 battlockSigLen) 0 32 = sub reass.buffer 0 32 :=
    sub_prefix reass.buffer (by decide)
  simp only [onSignature, verifyWithAtecc, publicKey_certView, hsig, hmessage]

theorem signatureCase_step (hf : input.frame = some frame) (hid : frame.id = canIdSignature) :
    Step C rootCaPublicKey v input (v.signatureCase C frame input).1
      (v.signatureCase C frame input).2 := by
  have hne : canIdSignature ≠ canIdAuthRequest := by decide
  have hne' : canIdSignature ≠ canIdCertificate := by decide
  have harrival : v.arrival input = if (v.sigReass.feed frame.data frame.len).2 = true ∧
      (v.sigReass.feed frame.data frame.len).1.len.toNat = battlockSigLen then
        .signature (sub (v.sigReass.feed frame.data frame.len).1.buffer 0 battlockSigLen)
      else .other := by
    simp only [arrival, hf, hid, hne, hne', ↓reduceIte]
  unfold signatureCase
  cases hfeed : v.sigReass.feed frame.data frame.len with
  | mk reass complete =>
    rw [hfeed] at harrival
    cases complete with
    | false => exact .other (by rw [harrival]; simp) rfl rfl (by simp)
    | true =>
      by_cases hlen : reass.len.toNat = battlockSigLen
      · have harrival' : v.arrival input = .signature (sub reass.buffer 0 battlockSigLen) := by
          rw [harrival, if_pos ⟨rfl, hlen⟩]
        simp only [hlen, ↓reduceIte, onSignature_eq]
        split
        · rename_i hverify
          exact .activated harrival' hverify rfl rfl
        · rename_i hverify
          exact .refused harrival' (Bool.eq_false_iff.2 hverify) rfl rfl
      · simp only [hlen, ↓reduceIte]
        exact .other (by rw [harrival, if_neg (by simp [hlen])]) rfl rfl (by simp)

/-! ## All calls -/

theorem dispatch_step (hf : input.frame = some frame) :
    Step C rootCaPublicKey v input (v.dispatch C rootCaPublicKey frame input).1
      (v.dispatch C rootCaPublicKey frame input).2 := by
  unfold dispatch
  split
  · rename_i hid
    exact .request (by simp [arrival, hf, hid]) rfl rfl
  · split
    · rename_i hid
      exact certificateCase_step C rootCaPublicKey hf hid
    · split
      · rename_i hid
        exact signatureCase_step C rootCaPublicKey hf hid
      · rename_i h1 h2 h3
        exact .other (by simp [arrival, hf, h1, h2, h3]) rfl rfl (by simp)

/-- **What a call of `loop()` can do.** -/
theorem loop_step (v : Vehicle) (input : VehicleInput) :
    Step C rootCaPublicKey v input (v.loop C rootCaPublicKey input).1
      (v.loop C rootCaPublicKey input).2 := by
  -- a status frame completes nothing
  have hstatus {frame : CanFrame} (hf : input.frame = some frame)
      (hid : frame.id = canIdBatteryStatus ∨ frame.id = canIdBatteryStatusB) :
      v.arrival input = .other := by
    rcases hid with hid | hid <;> simp only [arrival, hf, hid] <;> rfl
  unfold loop
  cases hf : input.frame with
  | none => exact .other (by simp [arrival, hf]) rfl rfl (by simp)
  | some frame =>
    dsimp only
    split
    · rename_i h
      exact .other (hstatus hf (.inl h.2)) rfl rfl (by simp)
    · split
      · rename_i h
        split
        · obtain ⟨hstate, hraw, hevents⟩ := handleStatusB_spec v frame.data
          exact .other (hstatus hf (.inr h.2)) hstate hraw hevents
        · exact .other (hstatus hf (.inr h.2)) rfl rfl (by simp)
      · exact dispatch_step C rootCaPublicKey hf

/-! ## Consequences -/

theorem states_report {events : List Event} (h : ∀ e ∈ events, ∃ r, e = .report r) :
    Event.states events = [] := by
  rw [Event.states, List.filterMap_eq_nil_iff]
  intro e he
  obtain ⟨r, rfl⟩ := h e he
  rfl

/-- The assignments of a call, by what the input completes. -/
def assigns (v : Vehicle) (input : VehicleInput) : List BattLockState :=
  match v.arrival input with
  | .other => []
  | .request => [.helloReceived]
  | .certificate raw =>
    if verifyCertificate C rootCaPublicKey (certView raw input.beyond) then
      [.certVerified, .challengeSent]
    else [.disconnected]
  | .signature sig =>
    if C.ecdsaVerify (sub sig 0 32) sig (sub v.certRaw 21 65) then [.authenticated, .activeSession]
    else [.disconnected]

theorem Step.states {v' : Vehicle} {events : List Event}
    (h : Step C rootCaPublicKey v input v' events) :
    Event.states events = assigns C rootCaPublicKey v input ∧
      v'.state = (assigns C rootCaPublicKey v input).getLastD v.state := by
  unfold assigns
  cases h with
  | other harrival hstate _ hevents =>
    rw [harrival]
    exact ⟨states_report hevents, hstate⟩
  | request harrival hstate =>
    rw [harrival]
    exact ⟨rfl, hstate⟩
  | certified harrival hverify hstate =>
    simp only [harrival, hverify, Event.states_append, Event.states_map_sent, ↓reduceIte]
    exact ⟨rfl, hstate⟩
  | rejected harrival hverify hstate =>
    simp only [harrival, hverify, Bool.false_eq_true, ↓reduceIte]
    exact ⟨rfl, hstate⟩
  | activated harrival hverify hstate =>
    simp only [harrival, hverify, Event.states_append, Event.states_canSend, ↓reduceIte]
    exact ⟨rfl, hstate⟩
  | refused harrival hverify hstate =>
    simp only [harrival, hverify, Event.states_append, Event.states_canSend, Bool.false_eq_true,
      ↓reduceIte]
    exact ⟨rfl, hstate⟩

end Vehicle

/-! ## A signature out of the blue -/

/-- The frames of a signature, as anyone may send them. -/
def signatureInput (i : Nat) : VehicleInput where
  frame := some (payloadFrame canIdSignature (List.replicate 64 1) i)
  millis _ := 0
  accept _ := true
  beyond := #v[0, 0]

/-- An `ecdsaVerify` that accepts. -/
def acceptingCrypto : Crypto where
  sha256 _ := Vector.replicate 32 0
  ecdsaVerify _ _ _ := true
  ecdsaVerifySlot _ _ _ := true

end BattLock.Hardware
