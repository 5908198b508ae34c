import BattLock.Can.Proof.StatusCollector
import Mathlib.Data.List.Infix

/-!
# The collector's slots over a run

Between two calls of `feed` the collector should be idle or hold an open round (`Sound`). The
decoders run before the buffer is cleared, so a frame that completes a round with a malformed
frame in it (`completes`, `Decodable`) leaves all three slots filled: `run_sound_iff` says that
these are the only steps that do so.
-/

namespace BattLock.StatusCollector

open Python

/-- All three slots are empty. -/
def Idle (self : StatusCollector) : Prop := self = {}

/-- A is stored, B or C is missing, and the collector says so. -/
def Open (self : StatusCollector) : Prop :=
  self.a.isSome ∧ (self.b = none ∨ self.c = none) ∧ self.pending = true

def Sound (self : StatusCollector) : Prop := self.Idle ∨ self.Open

/-- The three frames of the round that a frame completes. -/
def completes (self : StatusCollector) (message : CANMessage) :
    Option (CANMessage × CANMessage × CANMessage) :=
  if message.arbitrationId = CanId.batteryStatusB then
    match self.a, self.c with
    | some a, some c => some (a, message, c)
    | _, _ => none
  else if message.arbitrationId = CanId.batteryStatusC then
    match self.a, self.b with
    | some a, some b => some (a, b, message)
    | _, _ => none
  else none

/-- A and B have eight bytes, and C at least the four of the temperature. -/
def Decodable : CANMessage × CANMessage × CANMessage → Prop
  | (a, b, c) => a.data.length = 8 ∧ b.data.length = 8 ∧ 4 ≤ c.data.length

/-! ## One frame -/

theorem sound_idle : Sound {} := .inl rfl

theorem sound_of_b_none (a : CANMessage) (c : Option CANMessage) : Sound ⟨some a, none, c⟩ :=
  .inr ⟨rfl, .inl rfl, rfl⟩

theorem sound_of_c_none (a : CANMessage) (b : Option CANMessage) : Sound ⟨some a, b, none⟩ := by
  refine .inr ⟨rfl, .inr rfl, ?_⟩
  cases b <;> rfl

theorem not_sound_full (a b c : CANMessage) : ¬ Sound ⟨some a, some b, some c⟩ := by
  rintro (h | ⟨-, h | h, -⟩)
  · cases h
  · cases h
  · cases h

/-- A completed round is emitted if its frames decode; otherwise `feed` raises. -/
theorem statusFromFrames_ok_iff {a b c : CANMessage} :
    (∃ s, statusFromFrames a b c = .ok s) ↔ Decodable (a, b, c) := by
  have hc : (slice c.data 0 4).length = 4 ↔ 4 ≤ c.data.length := by
    simp [slice]
  simp only [statusFromFrames, decodeStatusA, decodeStatusB, decodeStatusC, Decodable, hc]
  by_cases ha : a.data.length = 8
  · by_cases hb : b.data.length = 8
    · by_cases h4 : 4 ≤ c.data.length
      · simp [ha, hb, h4]
      · simp [ha, hb, h4]
    · simp [ha, hb]
  · simp [ha]

theorem emit_decodable {a b c : CANMessage} (h : Decodable (a, b, c)) :
    ∃ s, emit ⟨some a, some b, some c⟩ = ({}, .ok (some s)) ∧
      s.counter = Struct.unpackUInt (slice a.data 0 4) := by
  obtain ⟨s, hs⟩ := statusFromFrames_ok_iff.2 h
  have hcounter : s.counter = Struct.unpackUInt (slice a.data 0 4) := by
    simp only [statusFromFrames, bind_eq_ok, pure_eq_ok, Except.ok.injEq] at hs
    obtain ⟨sa, ha, sb, -, sc, -, rfl⟩ := hs
    rw [decodeStatusA, if_pos h.1, Except.ok.injEq] at ha
    rw [← ha]
  refine ⟨s, ?_, hcounter⟩
  simp only [emit, hs]
  rfl

theorem emit_undecodable {a b c : CANMessage} (h : ¬ Decodable (a, b, c)) :
    ∃ e, emit ⟨some a, some b, some c⟩ = (⟨some a, some b, some c⟩, .error e) := by
  rw [← statusFromFrames_ok_iff] at h
  cases hs : statusFromFrames a b c with
  | ok s => exact absurd ⟨s, hs⟩ h
  | error e =>
    refine ⟨e, ?_⟩
    simp only [emit, hs]

theorem emit_full {a b c : CANMessage} :
    Sound (emit ⟨some a, some b, some c⟩).1 ↔ Decodable (a, b, c) := by
  constructor
  · intro hsound
    by_contra h
    obtain ⟨e, he⟩ := emit_undecodable h
    rw [he] at hsound
    exact not_sound_full a b c hsound
  · intro h
    obtain ⟨s, hs, -⟩ := emit_decodable h
    rw [hs]
    exact sound_idle

/-- A frame leaves a sound collector sound unless it completes a round that does not decode. -/
theorem feed_sound_iff {self : StatusCollector} (h : Sound self) (message : CANMessage) :
    Sound (feed self message).1 ↔
      ∀ round, completes self message = some round → Decodable round := by
  obtain ⟨a, b, c⟩ := self
  rw [completes]
  by_cases hA : message.arbitrationId = CanId.batteryStatusA
  · rw [feed_of_idA _ hA, if_neg (by rw [hA]; decide), if_neg (by rw [hA]; decide)]
    simp [sound_of_b_none]
  by_cases hB : message.arbitrationId = CanId.batteryStatusB
  · rw [feed_of_idB _ hB, if_pos hB]
    cases a with
    | none => simpa using h
    | some a =>
      cases c with
      | none => simp [sound_of_c_none]
      | some c => simp [emit_full]
  by_cases hC : message.arbitrationId = CanId.batteryStatusC
  · rw [feed_of_idC _ hC, if_neg hB, if_pos hC]
    cases a with
    | none => simpa using h
    | some a =>
      cases b with
      | none => simp [sound_of_b_none]
      | some b => simp [emit_full]
  · rw [feed_of_foreign _ ⟨hA, hB, hC⟩, if_neg hB, if_neg hC]
    simp [h]

/-! ## A run -/

/-- **The collector is sound in every state of a run if and only if every round completed in it
decodes.** -/
theorem run_sound_iff (frames : List CANMessage) :
    (∀ pre, pre <+: frames → Sound (machine.run {} pre)) ↔
      ∀ pre message, pre ++ [message] <+: frames →
        ∀ round, completes (machine.run {} pre) message = some round → Decodable round := by
  have hstep : ∀ pre message,
      machine.run {} (pre ++ [message]) = (feed (machine.run {} pre) message).1 := by
    intro pre message
    rw [Mealy.run_append]
    rfl
  constructor
  · intro h pre message hpre
    have hbefore := h pre ((List.prefix_append pre [message]).trans hpre)
    have hafter := h _ hpre
    rw [hstep] at hafter
    exact (feed_sound_iff hbefore message).1 hafter
  · intro h pre
    induction pre using List.reverseRecOn with
    | nil => exact fun _ => sound_idle
    | append_singleton pre message ih =>
      intro hpre
      have hbefore := ih ((List.prefix_append pre [message]).trans hpre)
      rw [hstep]
      exact (feed_sound_iff hbefore message).2 (h pre message hpre)

/-- An A of seven bytes: its round is completed, raises, and stays in the slots. -/
theorem run_sound_fails :
    ¬ ∀ frames : List CANMessage, (∀ m ∈ frames, m.data.length ≤ 8) →
      ∀ pre, pre <+: frames → Sound (machine.run {} pre) := by
  intro h
  have hfull := h [⟨0x200, [1, 0, 0, 0, 85, 98, 0]⟩, ⟨0x201, [0, 0, 0, 0, 0, 0, 0, 0]⟩,
    ⟨0x202, [0, 0, 0, 0, 0, 0, 0, 0]⟩] (by decide) _ List.prefix_rfl
  exact not_sound_full _ _ _ hfull

end BattLock.StatusCollector
