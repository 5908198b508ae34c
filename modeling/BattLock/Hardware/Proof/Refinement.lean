import BattLock.Hardware.Battery
import BattLock.Hardware.Proof.VehicleStep

/-!
# The firmware and the protocol's state machine

`BattLockStateMachine` of the software allows five transitions and a reset. The sketches assign
their state variable when a frame arrives, in any state: `refines_iff` says in which states each
kind of frame may arrive so that every assignment is a transition of the machine, a reset, or no
change. An assignment inside a case counts, also when another one follows it.
-/

namespace BattLock.Hardware

open BattLockStateMachine

/-! ## Allowed changes -/

/-- The transitions of the software's machine. -/
def transitions : List (BattLockStateMachine → BattLockStateMachine × Bool) :=
  [helloReceived, certificateVerified, challengeSent, authenticated, sessionEstablished]

/-- No change, a reset, or a transition of the software's machine. -/
def Allowed (s s' : BattLockState) : Prop :=
  s' = s ∨ reset ⟨s.mirror⟩ = ⟨s'.mirror⟩ ∨ ∃ t ∈ transitions, t ⟨s.mirror⟩ = (⟨s'.mirror⟩, true)

instance decidableAllowed (s s' : BattLockState) : Decidable (Allowed s s') :=
  inferInstanceAs (Decidable (_ ∨ _ ∨ _))

theorem allowed_disconnected (s : BattLockState) : Allowed s .disconnected := by
  cases s <;> decide

theorem allowed_helloReceived {s : BattLockState} :
    Allowed s .helloReceived ↔ s = .disconnected ∨ s = .helloReceived := by
  cases s <;> decide

theorem allowed_certVerified {s : BattLockState} :
    Allowed s .certVerified ↔ s = .helloReceived ∨ s = .certVerified := by
  cases s <;> decide

theorem allowed_challengeSent {s : BattLockState} :
    Allowed s .challengeSent ↔ s = .certVerified ∨ s = .challengeSent := by
  cases s <;> decide

theorem allowed_authenticated {s : BattLockState} :
    Allowed s .authenticated ↔ s = .challengeSent ∨ s = .authenticated := by
  cases s <;> decide

theorem allowed_activeSession {s : BattLockState} :
    Allowed s .activeSession ↔ s = .authenticated ∨ s = .activeSession := by
  cases s <;> decide

/-- A node started in `s₀` makes only allowed changes while it handles the inputs. -/
def Refines {σ ι : Type} (M : Mealy σ ι (List Event)) (state : σ → BattLockState) (s₀ : σ)
    (inputs : List ι) : Prop :=
  ∀ is₁ i is₂, inputs = is₁ ++ i :: is₂ →
    (state (M.run s₀ is₁) :: Event.states (M.step (M.run s₀ is₁) i).2).IsChain Allowed

/-- What makes a call allowed, makes a run allowed call by call. -/
theorem refines_of_step {σ ι : Type} {M : Mealy σ ι (List Event)} {state : σ → BattLockState}
    {P : σ → ι → Prop}
    (hstep : ∀ s i, (state s :: Event.states (M.step s i).2).IsChain Allowed ↔ P s i)
    (s₀ : σ) (inputs : List ι) :
    Refines M state s₀ inputs ↔
      ∀ is₁ i is₂, inputs = is₁ ++ i :: is₂ → P (M.run s₀ is₁) i := by
  refine forall_congr' fun is₁ => forall_congr' fun i => forall_congr' fun is₂ =>
    forall_congr' fun _ => ?_
  exact hstep _ i

/-! ## The vehicle -/

section
variable (C : Crypto) (rootCaPublicKey : Vector UInt8 65)

/-- What an input completes, it completes in a state in which the software's machine lets it. -/
def Vehicle.Proper (v : Vehicle) (input : VehicleInput) : Prop :=
  match v.arrival input with
  | .other => True
  | .request => v.state = .disconnected ∨ v.state = .helloReceived
  | .certificate raw => verifyCertificate C rootCaPublicKey (certView raw input.beyond) = true →
      v.state = .helloReceived ∨ v.state = .certVerified
  | .signature sig => C.ecdsaVerify (CArray.sub sig 0 32) sig (CArray.sub v.certRaw 21 65) = true →
      v.state = .challengeSent ∨ v.state = .authenticated

theorem vehicle_proper_iff (v : Vehicle) (input : VehicleInput) :
    (v.state :: Event.states ((Vehicle.machine C rootCaPublicKey).step v input).2).IsChain Allowed ↔
      v.Proper C rootCaPublicKey input := by
  have hcert : Allowed .certVerified .challengeSent := by decide
  have hactive : Allowed .authenticated .activeSession := by decide
  have hstates : Event.states ((Vehicle.machine C rootCaPublicKey).step v input).2 =
      v.assigns C rootCaPublicKey input := (Vehicle.loop_step C rootCaPublicKey v input).states.1
  rw [hstates, Vehicle.assigns, Vehicle.Proper]
  cases v.arrival input with
  | other => simp
  | request => simp [allowed_helloReceived]
  | certificate raw =>
    dsimp only
    split
    · rename_i h
      simp [allowed_certVerified, h, hcert]
    · rename_i h
      simp [allowed_disconnected, h]
  | signature sig =>
    dsimp only
    split
    · rename_i h
      simp [allowed_authenticated, h, hactive]
    · rename_i h
      simp [allowed_disconnected, h]

end

/-! ## The battery -/

namespace Battery

/-- What an input brings: nothing the state depends on, an authentication request, the last frame
of a nonce, the result of the authentication, a session. -/
inductive Arrival
  | other
  | request
  | nonce
  | authOk
  | authFailed
  | session

def arrival (b : Battery) (input : BatteryInput) : Arrival :=
  match input.frame with
  | none => .other
  | some frame =>
    if frame.id = canIdAuthRequest then .request
    else if frame.id = canIdNonce then
      let (reass, complete) := b.reass.feed frame.data frame.len
      if complete ∧ reass.len.toNat = battlockNonceLen then .nonce else .other
    else if frame.id = canIdAuthResult then
      if frame.data.get 0 = 0x01 then .authOk else .authFailed
    else if frame.id = canIdSessionId then .session
    else .other

/-- A frame arrives in a state in which the software's machine lets it. -/
def Proper (b : Battery) (input : BatteryInput) : Prop :=
  match b.arrival input with
  | .other => True
  | .request => b.state = .disconnected ∨ b.state = .helloReceived
  | .nonce => b.state = .certVerified ∨ b.state = .challengeSent
  | .authOk => b.state = .challengeSent ∨ b.state = .authenticated
  | .authFailed => True
  | .session => b.state = .authenticated ∨ b.state = .activeSession

/-- The state a call assigns. -/
def assigns (b : Battery) (input : BatteryInput) : Option BattLockState :=
  match b.arrival input with
  | .other => none
  | .request => some .helloReceived
  | .nonce => some .challengeSent
  | .authOk => some .authenticated
  | .authFailed => some .disconnected
  | .session => some .activeSession

variable (batteryCert : BattLockCert)

theorem states_advertise (b : Battery) (accept : CanFrame → Bool) :
    Event.states (b.advertise accept) = [] := by
  unfold advertise
  split
  · exact Event.states_canSend _ _
  · rfl

theorem signChallenge_spec (b : Battery) (input : BatteryInput) :
    Event.states (b.signChallenge input).2 = [] ∧ (b.signChallenge input).1.state = b.state := by
  unfold signChallenge
  split
  · split
    · exact ⟨Event.states_map_sent _, rfl⟩
    · exact ⟨rfl, rfl⟩
  · exact ⟨rfl, rfl⟩

theorem telemetry_spec (b : Battery) (accept : CanFrame → Bool) :
    Event.states (b.telemetry accept).2 = [] ∧ (b.telemetry accept).1.state = b.state := by
  unfold telemetry sendStatus
  split
  · refine ⟨?_, rfl⟩
    dsimp only
    split
    · exact Event.states_canSend _ _
    · rfl
  · exact ⟨rfl, rfl⟩

theorem receive_spec {b : Battery} {input : BatteryInput} {frame : CanFrame}
    (hf : input.frame = some frame) :
    Event.states (b.receive batteryCert frame input).2 = (b.assigns input).toList ∧
      (b.receive batteryCert frame input).1.state = (b.assigns input).getD b.state := by
  unfold receive assigns arrival
  rw [hf]
  dsimp only
  split
  · unfold authRequestCase
    dsimp only
    rw [Event.states_append, Event.states_map_sent]
    exact ⟨rfl, rfl⟩
  · split
    · unfold nonceCase
      cases b.reass.feed frame.data frame.len with
      | mk reass complete =>
        cases complete with
        | false => exact ⟨rfl, rfl⟩
        | true =>
          by_cases hlen : reass.len.toNat = battlockNonceLen
          · simp only [hlen, ↓reduceIte, and_self]
            exact ⟨rfl, rfl⟩
          · simp only [hlen, ↓reduceIte, and_false]
            exact ⟨rfl, rfl⟩
    · split
      · split
        · exact ⟨rfl, rfl⟩
        · exact ⟨rfl, rfl⟩
      · split
        · exact ⟨rfl, rfl⟩
        · exact ⟨rfl, rfl⟩

theorem loop_spec (b : Battery) (input : BatteryInput) :
    Event.states (b.loop batteryCert input).2 = (b.assigns input).toList ∧
      (b.loop batteryCert input).1.state = (b.assigns input).getD b.state := by
  unfold loop
  cases hf : input.frame with
  | none =>
    have hassigns : b.assigns input = none := by rw [assigns, arrival, hf]
    obtain ⟨hsigned, hstate⟩ := signChallenge_spec b input
    obtain ⟨hstreamed, hstate'⟩ := telemetry_spec (b.signChallenge input).1 input.accept
    simp only [Event.states_append, states_advertise, hsigned, hstreamed, hassigns]
    exact ⟨rfl, hstate'.trans hstate⟩
  | some frame =>
    obtain ⟨hreceived, hstate₀⟩ := receive_spec batteryCert (b := b) hf
    obtain ⟨hsigned, hstate⟩ := signChallenge_spec (b.receive batteryCert frame input).1 input
    obtain ⟨hstreamed, hstate'⟩ :=
      telemetry_spec ((b.receive batteryCert frame input).1.signChallenge input).1 input.accept
    simp only [Event.states_append, states_advertise, hreceived, hsigned, hstreamed,
      List.nil_append, List.append_nil]
    exact ⟨trivial, hstate'.trans (hstate.trans hstate₀)⟩

theorem proper_iff (b : Battery) (input : BatteryInput) :
    (b.state :: Event.states ((machine batteryCert).step b input).2).IsChain Allowed ↔
      b.Proper input := by
  have hstates : Event.states ((machine batteryCert).step b input).2 = (b.assigns input).toList :=
    (loop_spec batteryCert b input).1
  rw [hstates, assigns, Proper]
  cases b.arrival input with
  | other => simp
  | request => simp [allowed_helloReceived]
  | nonce => simp [allowed_challengeSent]
  | authOk => simp [allowed_authenticated]
  | authFailed => simp [allowed_disconnected]
  | session => simp [allowed_activeSession]

end Battery

/-! ## Both sketches -/

/-- **When the firmware refines the protocol's state machine**: a run of the vehicle or of the
battery makes only transitions of the machine and resets if and only if every frame of it arrives
in a state in which the machine lets it. -/
theorem refines_iff (C : Crypto) (rootCaPublicKey : Vector UInt8 65) (batteryCert : BattLockCert)
    (vehicleInputs : List VehicleInput) (batteryInputs : List BatteryInput) :
    (Refines (Vehicle.machine C rootCaPublicKey) Vehicle.state {} vehicleInputs ↔
      ∀ is₁ i is₂, vehicleInputs = is₁ ++ i :: is₂ →
        ((Vehicle.machine C rootCaPublicKey).run {} is₁).Proper C rootCaPublicKey i) ∧
    (Refines (Battery.machine batteryCert) Battery.state {} batteryInputs ↔
      ∀ is₁ i is₂, batteryInputs = is₁ ++ i :: is₂ →
        ((Battery.machine batteryCert).run {} is₁).Proper i) :=
  ⟨refines_of_step (vehicle_proper_iff C rootCaPublicKey) {} vehicleInputs,
    refines_of_step (Battery.proper_iff batteryCert) {} batteryInputs⟩

/-- A session identifier, as anyone may send it. -/
def sessionInput : BatteryInput where
  frame := some (.ofBytes canIdSessionId [])
  accept _ := true
  ecdsaSign _ := none

/-- Out of the blue, a session identifier takes the battery, and an accepted signature the vehicle,
from `DISCONNECTED` to the end of the handshake. -/
theorem not_refines_unguarded :
    ¬ Refines (Battery.machine (.ofBytes (Vector.replicate _ 0))) Battery.state {} [sessionInput] ∧
      ¬ Refines (Vehicle.machine acceptingCrypto (Vector.replicate 65 0)) Vehicle.state {}
        ((List.range 10).map signatureInput) := by
  constructor
  · intro h
    have hstep := h [] sessionInput [] rfl
    revert hstep
    decide +kernel
  · intro h
    have hstep := h ((List.range 9).map signatureInput) (signatureInput 9) [] rfl
    revert hstep
    decide +kernel

end BattLock.Hardware
