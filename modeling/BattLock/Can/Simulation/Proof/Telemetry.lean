import BattLock.Can.Proof.StatusCodec
import BattLock.Can.Simulation.VehicleNode

/-!
# How the vehicle treats one frame

`statusCounter m` is the counter a frame is checked with, if it gets that far. A received frame
raises `lastCounter` to that counter and changes nothing else of it (`receive_lastCounter`); it is
reported `VALID` exactly if it decodes to a safe status above `lastCounter` (`receive_valid_iff`).
From these follows what a run does to `lastCounter` (`run_lastCounter_lt`).
-/

namespace BattLock.VehicleNode

open Python Python.Struct

variable {PK ι ο : Type}

/-! ## Frames -/

/-- The counter of a status frame of the right length. -/
def statusCounter (message : CANMessage) : Option Int :=
  if message.arbitrationId = CanId.batteryStatus ∧ message.data.length = 19 then
    some (unpackUInt (slice message.data 0 4))
  else none

/-- A status with a defined fault bit or a measurement near its limit or above. -/
def Unsafe (status : BatteryStatus) : Prop :=
  status.faultFlags.toNat &&& Fault.mask ≠ 0 ∨
    exceeds status voltageWarn currentWarn temperatureWarn = true

instance (status : BatteryStatus) : Decidable (Unsafe status) :=
  inferInstanceAs (Decidable (_ ∨ _))

/-- A frame reported `VALID`. -/
def Valid (r : Except Err Report) : Prop := ∃ status, r = .ok (.valid status)

@[simp] theorem not_valid_error (e : Err) : ¬ Valid (.error e) := by
  simp [Valid]

@[simp] theorem valid_ok {r : Report} : Valid (.ok r) ↔ ∃ status, r = .valid status := by
  simp [Valid]

theorem statusCounter_eq_some {m : CANMessage} {c : Int} :
    statusCounter m = some c ↔
      m.arbitrationId = CanId.batteryStatus ∧ ∃ s, decodeStatus m = .ok s ∧ s.counter = c := by
  unfold statusCounter decodeStatus
  by_cases hlen : m.data.length = 19 <;> by_cases hid : m.arbitrationId = CanId.batteryStatus <;>
    simp [hlen, hid]

/-! ## The content checks -/

theorem gt_of_gt {x : Ieee.Value} {c d : ℚ} (hcd : c ≤ d) (h : x.gt d = true) : x.gt c = true := by
  cases x with
  | nan => cases h
  | inf negative => exact h
  | finite q => exact decide_eq_true (lt_of_le_of_lt hcd (of_decide_eq_true h))

theorem exceeds_warn {status : BatteryStatus} (h : exceeds status 100 500 150 = true) :
    exceeds status voltageWarn currentWarn temperatureWarn = true := by
  simp only [exceeds, Bool.or_eq_true] at h ⊢
  rcases h with (h | h) | h
  · exact .inl (.inl (gt_of_gt (by decide) h))
  · exact .inl (.inr (gt_of_gt (by decide) h))
  · exact .inr (gt_of_gt (by decide) h)

theorem checkContent_eq_valid {status s : BatteryStatus} :
    checkContent status = .valid s ↔ s = status ∧ ¬ Unsafe status := by
  unfold checkContent Unsafe
  split
  · rename_i h
    simp [exceeds_warn h]
  · split
    · rename_i h
      simp [h]
    · split
      · rename_i h
        simp [h]
      · rename_i h1 h2 h3
        simp only [Report.valid.injEq, not_or]
        exact ⟨fun h => ⟨h.symm, h2, h3⟩, fun h => h.1.symm⟩

/-! ## One frame -/

theorem handleStatus_ok (self : VehicleNode PK) {m : CANMessage} {s : BatteryStatus}
    (h : decodeStatus m = .ok s) :
    self.handleStatus m =
      if s.counter ≤ self.replay.lastCounter then (self, .replay)
      else ({ self with replay := ⟨s.counter⟩ }, checkContent s) := by
  have hlen := length_of_decodeStatus h
  by_cases hle : s.counter ≤ self.replay.lastCounter <;>
    simp [handleStatus, ReplayProtection.validate, hlen, h, hle]

theorem handleStatus_malformed (self : VehicleNode PK) {m : CANMessage}
    (h : m.data.length ≠ 19) : self.handleStatus m = (self, .malformed) := by
  rw [handleStatus, if_pos h]

theorem receive_status (self : VehicleNode PK) {m : CANMessage}
    (h : m.arbitrationId = CanId.batteryStatus) :
    self.receive m = ((self.handleStatus m).1, .ok (self.handleStatus m).2) := by
  rw [receive, if_neg (by rw [h]; decide), if_pos h]

theorem receive_of_no_counter (self : VehicleNode PK) {m : CANMessage}
    (h : statusCounter m = none) :
    (self.receive m).1.replay = self.replay ∧ ¬ Valid (self.receive m).2 := by
  by_cases hid : m.arbitrationId = CanId.batteryStatus
  · have hlen : m.data.length ≠ 19 := by
      intro hlen
      rw [statusCounter, if_pos ⟨hid, hlen⟩] at h
      cases h
    rw [receive_status self hid, handleStatus_malformed self hlen]
    exact ⟨rfl, by simp⟩
  · unfold receive
    split
    · refine ⟨rfl, ?_⟩
      cases hb : decodeBatteryId m with
      | error e => simp
      | ok id => simp
    · split
      · unfold handleSessionId
        split
        · exact ⟨rfl, by simp⟩
        · split
          · exact ⟨rfl, by simp⟩
          · exact ⟨rfl, by simp⟩
      · exact ⟨rfl, by simp⟩

/-- The counter of a frame, `lastCounter` raised to it. -/
def raised (counter : Option Int) (last : Int) : Int := counter.elim last (max last)

theorem receive_lastCounter (self : VehicleNode PK) (m : CANMessage) :
    (self.receive m).1.replay.lastCounter =
      raised (statusCounter m) self.replay.lastCounter := by
  cases hc : statusCounter m with
  | none => rw [(receive_of_no_counter self hc).1]; rfl
  | some c =>
    obtain ⟨hid, s, hs, rfl⟩ := statusCounter_eq_some.1 hc
    rw [receive_status self hid, handleStatus_ok self hs]
    split
    · exact (max_eq_left ‹_›).symm
    · exact (max_eq_right (Int.le_of_lt (Int.not_le.1 ‹_›))).symm

/-- **When a frame is `VALID`**: it decodes to a safe status above the last counter. -/
theorem receive_valid_iff (self : VehicleNode PK) (m : CANMessage) (s : BatteryStatus) :
    (self.receive m).2 = .ok (.valid s) ↔
      m.arbitrationId = CanId.batteryStatus ∧ decodeStatus m = .ok s ∧
        self.replay.lastCounter < s.counter ∧ ¬ Unsafe s := by
  cases hc : statusCounter m with
  | none =>
    refine ⟨fun h => absurd ⟨s, h⟩ (receive_of_no_counter self hc).2, ?_⟩
    intro h
    obtain ⟨hid, hs, -⟩ := h
    rw [statusCounter_eq_some.2 ⟨hid, s, hs, rfl⟩] at hc
    cases hc
  | some c =>
    obtain ⟨hid, s', hs', rfl⟩ := statusCounter_eq_some.1 hc
    rw [receive_status self hid, handleStatus_ok self hs', hs']
    simp only [hid, Except.ok.injEq, true_and]
    split
    · rename_i hle
      refine ⟨fun h => (by cases h), ?_⟩
      intro h
      obtain ⟨rfl, hlt, -⟩ := h
      omega
    · rename_i hlt
      rw [checkContent_eq_valid]
      constructor
      · intro h
        obtain ⟨rfl, hsafe⟩ := h
        exact ⟨rfl, by omega, hsafe⟩
      · intro h
        obtain ⟨rfl, -, hsafe⟩ := h
        exact ⟨rfl, hsafe⟩

theorem receive_valid_counter {self : VehicleNode PK} {m : CANMessage} {s : BatteryStatus}
    (h : (self.receive m).2 = .ok (.valid s)) :
    statusCounter m = some s.counter ∧ self.replay.lastCounter < s.counter := by
  obtain ⟨hid, hs, hlt, -⟩ := (receive_valid_iff self m s).1 h
  exact ⟨statusCounter_eq_some.2 ⟨hid, s, hs, rfl⟩, hlt⟩

/-! ## Runs -/

/-- The last counter of a run is the greatest of those it started with and met: one that exceeds
it exceeds all of them. -/
theorem run_lastCounter_lt {M : Mealy (VehicleNode PK) ι ο} {counterOf : ι → Option Int}
    (hM : ∀ t i, (M.step t i).1.replay.lastCounter =
      raised (counterOf i) t.replay.lastCounter) {c : Int} :
    ∀ {s : VehicleNode PK} {is : List ι}, (M.run s is).replay.lastCounter < c ↔
      s.replay.lastCounter < c ∧ ∀ i ∈ is, ∀ c', counterOf i = some c' → c' < c
  | s, [] => by simp
  | s, i :: is => by
    rw [Mealy.run_cons, run_lastCounter_lt hM, hM, List.forall_mem_cons, ← and_assoc]
    refine and_congr_left fun _ => ?_
    cases hc : counterOf i with
    | none => simp [raised]
    | some c' => simp [raised]

theorem receiver_lastCounter (t : VehicleNode PK) (m : CANMessage) :
    (receiver.step t m).1.replay.lastCounter =
      raised (statusCounter m) t.replay.lastCounter := receive_lastCounter t m

/-- The counter a call checks. -/
def Call.statusCounter : Call → Option Int
  | .receive m => VehicleNode.statusCounter m
  | _ => none

theorem machine_lastCounter [Interpreter] {SK : Type} (E : Ecdsa SK PK) (t : VehicleNode PK)
    (call : Call) :
    ((machine E).step t call).1.replay.lastCounter =
      raised call.statusCounter t.replay.lastCounter := by
  cases call with
  | receive m => exact receive_lastCounter t m
  | receiveAndVerifyCertificate m now =>
    simp only [machine, receiveAndVerifyCertificate]
    split <;> rfl
  | sendNonce nonce timestamp => rfl
  | receiveAndVerifySignature m => rfl

end BattLock.VehicleNode
