import BattLock.Can.Proof.StatusRoundTrip
import BattLock.Can.Simulation.Proof.Telemetry

/-!
# What a report of `VALID` says

The node refuses a status by tests of the form `x > limit`, which a NaN never meets. So a status
reported `VALID` is within the limits and without a fault unless one of its measurements is a NaN
(`within_iff`), and such frames are the only ones with which a `VALID` report is wrong
(`valid_within_iff`).
-/

namespace BattLock

open Python

/-- The six defined faults. -/
def Fault.flags : List Nat :=
  [overvoltage, undervoltage, overcurrent, overtemp, commError, authFailure]

theorem Fault.and_mask {n : Nat} : n &&& mask = 0 ↔ ∀ flag ∈ flags, n &&& flag = 0 := by
  simp [mask, flags, Nat.and_or_distrib_left, Nat.or_eq_zero_iff, and_assoc]

namespace VehicleNode

variable {PK : Type}

/-- A status within the limits of the node, with no defined fault. -/
structure Within (s : BatteryStatus) : Prop where
  voltage : s.voltage.val.le voltageWarn = true
  current : s.current.val.le currentWarn = true
  temperature : s.temperature.val.le temperatureWarn = true
  faults : ∀ flag ∈ Fault.flags, s.faultFlags.toNat &&& flag = 0

/-- The node's checks are those limits, but for NaNs. -/
theorem within_iff {s : BatteryStatus} : Within s ↔ ¬ Unsafe s ∧ s.NotNaN := by
  have hsafe : ¬ Unsafe s ↔ (∀ flag ∈ Fault.flags, s.faultFlags.toNat &&& flag = 0) ∧
      s.voltage.val.gt voltageWarn = false ∧ s.current.val.gt currentWarn = false ∧
        s.temperature.val.gt temperatureWarn = false := by
    rw [← Fault.and_mask, Unsafe, exceeds]
    simp [and_assoc]
  rw [hsafe, BatteryStatus.NotNaN]
  constructor
  · intro h
    obtain ⟨hv, hvgt⟩ := Ieee.Value.le_iff.1 h.voltage
    obtain ⟨hi, higt⟩ := Ieee.Value.le_iff.1 h.current
    obtain ⟨ht, htgt⟩ := Ieee.Value.le_iff.1 h.temperature
    exact ⟨⟨h.faults, hvgt, higt, htgt⟩, hv, hi, ht⟩
  · rintro ⟨⟨hfaults, hvgt, higt, htgt⟩, hv, hi, ht⟩
    exact ⟨Ieee.Value.le_iff.2 ⟨hv, hvgt⟩, Ieee.Value.le_iff.2 ⟨hi, higt⟩,
      Ieee.Value.le_iff.2 ⟨ht, htgt⟩, hfaults⟩

/-- A status frame that none of the node's checks refuses, with a NaN in it. -/
def NaNPasses (self : VehicleNode PK) (m : CANMessage) : Prop :=
  m.arbitrationId = CanId.batteryStatus ∧ ∃ s, decodeStatus m = .ok s ∧
    self.replay.lastCounter < s.counter ∧ ¬ Unsafe s ∧ ¬ s.NotNaN

/-- **What `VALID` says**: a frame of 19 bytes, within the limits and without a fault, in every case
but that of a NaN that passes. -/
theorem valid_within_iff (self : VehicleNode PK) (m : CANMessage) :
    (Valid (self.receive m).2 →
        m.data.length = 19 ∧ ∃ s, decodeStatus m = .ok s ∧ Within s) ↔
      ¬ NaNPasses self m := by
  constructor
  · rintro h ⟨hid, s, hs, hlt, hsafe, hnan⟩
    obtain ⟨-, s', hs', hwithin⟩ := h ⟨s, (receive_valid_iff self m s).2 ⟨hid, hs, hlt, hsafe⟩⟩
    rw [hs] at hs'
    cases hs'
    exact hnan (within_iff.1 hwithin).2
  · rintro h ⟨s, hvalid⟩
    obtain ⟨hid, hs, hlt, hsafe⟩ := (receive_valid_iff self m s).1 hvalid
    refine ⟨length_of_decodeStatus hs, s, hs, within_iff.2 ⟨hsafe, ?_⟩⟩
    by_contra hnan
    exact h ⟨hid, s, hs, hlt, hsafe, hnan⟩

/-- A voltage of NaN is `VALID` and is not within the limit. -/
theorem valid_nan :
    Valid ((VehicleNode.init (none : Option Unit)).receive
        ⟨0x200, [1, 0, 0, 0, 0, 0, 0xC0, 0x7F, 0, 0, 0, 0, 0, 0, 0, 0, 85, 98, 0]⟩).2 ∧
      ¬ ∃ s, decodeStatus
          ⟨0x200, [1, 0, 0, 0, 0, 0, 0xC0, 0x7F, 0, 0, 0, 0, 0, 0, 0, 0, 85, 98, 0]⟩ = .ok s ∧
        Within s := by
  have hdecode : decodeStatus
      ⟨0x200, [1, 0, 0, 0, 0, 0, 0xC0, 0x7F, 0, 0, 0, 0, 0, 0, 0, 0, 85, 98, 0]⟩ =
        .ok ⟨1, .ofBits 0x7FF8000000000000, .ofBits 0, .ofBits 0, 85, 98, 0⟩ := by
    decide +kernel
  constructor
  · refine ⟨_, (receive_valid_iff _ _ _).2 ⟨rfl, hdecode, ?_, ?_⟩⟩
    · decide
    · decide +kernel
  · rintro ⟨s, hs, hwithin⟩
    rw [hdecode] at hs
    cases hs
    exact absurd hwithin.voltage (by decide +kernel)

end VehicleNode

end BattLock
