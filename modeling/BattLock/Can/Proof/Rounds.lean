import BattLock.Can.Proof.StatusCollector
import Mathlib.Data.List.Infix

/-!
# The trace of a stream of rounds

A round on the bus is frame A of a status, then copies of its B and C in any number and order,
with foreign frames in between (`BusRound`). `stream_trace` says of a stream of such rounds what
the collector answers to each frame, what it emits and when it has a round pending. The invariant
is `BusRound.slots`: what the collector holds is determined by the frames seen since the last A.
-/

namespace BattLock

open Python

/-- A round as the collector sees it. -/
structure BusRound where
  status : BatteryStatus
  a : CANMessage
  b : CANMessage
  c : CANMessage
  encodeA : encodeStatusA status = .ok a
  encodeB : encodeStatusB status = .ok b
  encodeC : encodeStatusC status = .ok c
  /-- The frames after A. -/
  rest : List CANMessage
  mem_rest : ∀ m ∈ rest, m = b ∨ m = c ∨ StatusCollector.Foreign m

namespace BusRound

variable (r : BusRound)

def frames : List CANMessage := r.a :: r.rest

/-- A B and a C are among the frames seen after A. -/
def Complete (seen : List CANMessage) : Prop := r.b ∈ seen ∧ r.c ∈ seen

instance Complete.decidable (seen : List CANMessage) : Decidable (r.Complete seen) :=
  inferInstanceAs (Decidable (r.b ∈ seen ∧ r.c ∈ seen))

/-- The answers to frames that come after those in `seen`: the status, with its measurements as
the frames carry them, at the frame that completes the round. -/
def answersAfter : List CANMessage → List CANMessage → List (Except Err (Option BatteryStatus))
  | _, [] => []
  | seen, m :: ms =>
    .ok (if r.Complete (seen ++ [m]) ∧ ¬ r.Complete seen then some r.status.rounded else none) ::
      answersAfter (seen ++ [m]) ms

/-- The answers to the frames of a round. -/
def answers : List (Except Err (Option BatteryStatus)) := .ok none :: r.answersAfter [] r.rest

/-- What the collector holds when it has seen A and some later frames of the round. -/
def slots (seen : List CANMessage) : StatusCollector :=
  if r.Complete seen then {}
  else ⟨some r.a, if r.b ∈ seen then some r.b else none, if r.c ∈ seen then some r.c else none⟩

end BusRound

/-- Rounds on the bus, behind foreign frames. -/
structure BusStream where
  lead : List CANMessage
  mem_lead : ∀ m ∈ lead, StatusCollector.Foreign m
  rounds : List BusRound

def BusStream.frames (s : BusStream) : List CANMessage :=
  s.lead ++ s.rounds.flatMap BusRound.frames

namespace StatusCollector

/-! ## One frame -/

section
variable (r : BusRound) (seen : List CANMessage)

theorem b_ne_c : r.b ≠ r.c := by
  intro h
  have hb := (encodeStatusB_ok r.encodeB).1
  rw [h, (encodeStatusC_ok r.encodeC).1] at hb
  exact absurd hb (by decide)

theorem Foreign.ne_b {m : CANMessage} (h : Foreign m) : r.b ≠ m := by
  rintro rfl
  exact h.2.1 (encodeStatusB_ok r.encodeB).1

theorem Foreign.ne_c {m : CANMessage} (h : Foreign m) : r.c ≠ m := by
  rintro rfl
  exact h.2.2 (encodeStatusC_ok r.encodeC).1

theorem emit_round : emit ⟨some r.a, some r.b, some r.c⟩ = ({}, .ok (some r.status.rounded)) :=
  emit_combine r.encodeA r.encodeB r.encodeC

/-- A frame of the round takes the slots to those of one frame more. -/
theorem feed_slots {m : CANMessage} (hm : m = r.b ∨ m = r.c ∨ Foreign m) :
    feed (r.slots seen) m = (r.slots (seen ++ [m]),
      .ok (if r.Complete (seen ++ [m]) ∧ ¬ r.Complete seen then some r.status.rounded
        else none)) := by
  have hbc := b_ne_c r
  rcases hm with rfl | rfl | hm
  · rw [feed_of_idB _ (encodeStatusB_ok r.encodeB).1]
    by_cases hb : r.b ∈ seen <;> by_cases hc : r.c ∈ seen <;>
      simp [BusRound.slots, BusRound.Complete, hb, hc, hbc.symm, emit_round]
  · rw [feed_of_idC _ (encodeStatusC_ok r.encodeC).1]
    by_cases hb : r.b ∈ seen <;> by_cases hc : r.c ∈ seen <;>
      simp [BusRound.slots, BusRound.Complete, hb, hc, hbc, emit_round]
  · rw [feed_of_foreign _ hm]
    have hb := hm.ne_b r
    have hc := hm.ne_c r
    by_cases hdone : r.Complete seen
    · have hdone' := hdone
      simp [BusRound.Complete] at hdone
      simp [BusRound.slots, BusRound.Complete, hdone]
    · have hseen : r.Complete (seen ++ [m]) ↔ r.Complete seen := by
        simp [BusRound.Complete, hb, hc]
      simp [BusRound.slots, hseen, hb, hc, hdone]

end

/-! ## One round -/

theorem log_slots (r : BusRound) {ms : List CANMessage} (seen : List CANMessage)
    (hms : ∀ m ∈ ms, m = r.b ∨ m = r.c ∨ Foreign m) :
    (machine.log (r.slots seen) ms).map Prod.snd = r.answersAfter seen ms ∧
      machine.run (r.slots seen) ms = r.slots (seen ++ ms) := by
  induction ms generalizing seen with
  | nil => simp [BusRound.answersAfter]
  | cons m ms ih =>
    have hstep : machine.step (r.slots seen) m = _ :=
      feed_slots r seen (hms m List.mem_cons_self)
    obtain ⟨hlog, hrun⟩ := ih (seen ++ [m]) fun m' hm' => hms m' (List.mem_cons_of_mem _ hm')
    rw [Mealy.log_cons, Mealy.run_cons, hstep, List.map_cons, hlog, hrun, BusRound.answersAfter]
    simp

theorem step_a (self : StatusCollector) (r : BusRound) :
    machine.step self r.a = (r.slots [], .ok none) := by
  have hslots : r.slots [] = ⟨some r.a, none, none⟩ := by
    simp [BusRound.slots, BusRound.Complete]
  rw [hslots]
  exact feed_of_idA self (encodeStatusA_ok r.encodeA).1

theorem log_round (self : StatusCollector) (r : BusRound) :
    (machine.log self r.frames).map Prod.snd = r.answers := by
  obtain ⟨hlog, -⟩ := log_slots r [] r.mem_rest
  rw [BusRound.frames, Mealy.log_cons, step_a, List.map_cons, hlog]
  rfl

theorem run_round (self : StatusCollector) (r : BusRound) {seen : List CANMessage}
    (h : seen <+: r.rest) : machine.run self (r.a :: seen) = r.slots seen := by
  obtain ⟨-, hrun⟩ := log_slots r [] fun m hm => r.mem_rest m (h.subset hm)
  rw [Mealy.run_cons, step_a, hrun, List.nil_append]

theorem pending_slots (r : BusRound) (seen : List CANMessage) :
    (r.slots seen).pending = true ↔ ¬ r.Complete seen := by
  by_cases hb : r.b ∈ seen <;> by_cases hc : r.c ∈ seen <;>
    simp [BusRound.slots, BusRound.Complete, pending, hb, hc]

theorem filterMap_answers (r : BusRound) :
    r.answers.filterMap (fun o => o.toOption.join) =
      if r.Complete r.rest then [r.status.rounded] else [] := by
  have hafter : ∀ seen ms, (r.answersAfter seen ms).filterMap (fun o => o.toOption.join) =
      if r.Complete (seen ++ ms) ∧ ¬ r.Complete seen then [r.status.rounded] else [] := by
    intro seen ms
    induction ms generalizing seen with
    | nil => simp [BusRound.answersAfter]
    | cons m ms ih =>
      have hmono : r.Complete seen → r.Complete (seen ++ [m]) := fun h =>
        ⟨List.mem_append_left _ h.1, List.mem_append_left _ h.2⟩
      have hmono' : r.Complete (seen ++ [m]) → r.Complete (seen ++ m :: ms) := fun h => by
        rw [List.append_cons]
        exact ⟨List.mem_append_left _ h.1, List.mem_append_left _ h.2⟩
      rw [BusRound.answersAfter, List.filterMap_cons, ih, ← List.append_cons]
      by_cases h : r.Complete seen
      · simp [h, hmono h, Except.toOption]
      · by_cases h' : r.Complete (seen ++ [m])
        · simp [h, h', hmono' h', Except.toOption]
        · simp [h, h', Except.toOption]
  have hnone : ¬ r.Complete [] := by simp [BusRound.Complete]
  rw [BusRound.answers, List.filterMap_cons, hafter]
  simp [hnone, Except.toOption]

/-! ## The stream -/

theorem log_foreign (self : StatusCollector) {ms : List CANMessage} (h : ∀ m ∈ ms, Foreign m) :
    (machine.log self ms).map Prod.snd = ms.map (fun _ => .ok none) ∧
      machine.run self ms = self := by
  induction ms with
  | nil => exact ⟨rfl, rfl⟩
  | cons m ms ih =>
    have hstep : machine.step self m = _ := feed_of_foreign self (h m List.mem_cons_self)
    obtain ⟨hlog, hrun⟩ := ih fun m' hm' => h m' (List.mem_cons_of_mem _ hm')
    rw [Mealy.log_cons, Mealy.run_cons, hstep, List.map_cons, List.map_cons, hlog]
    exact ⟨rfl, hrun⟩

theorem log_rounds (self : StatusCollector) (rounds : List BusRound) :
    (machine.log self (rounds.flatMap BusRound.frames)).map Prod.snd =
      rounds.flatMap BusRound.answers := by
  induction rounds generalizing self with
  | nil => rfl
  | cons r rounds ih =>
    rw [List.flatMap_cons, Mealy.log_append, List.map_append, log_round, ih, List.flatMap_cons]

/-- Where a stream of rounds can be cut. -/
theorem prefix_rounds {rounds : List BusRound} {pre : List CANMessage}
    (h : pre <+: rounds.flatMap BusRound.frames) :
    pre = [] ∨ ∃ earlier r later seen, rounds = earlier ++ r :: later ∧ seen <+: r.rest ∧
      pre = earlier.flatMap BusRound.frames ++ r.a :: seen := by
  induction rounds generalizing pre with
  | nil => exact .inl (List.prefix_nil.1 h)
  | cons r rounds ih =>
    obtain ⟨post, h⟩ := h
    rw [List.flatMap_cons, List.append_eq_append_iff] at h
    rcases h with ⟨mid, hmid, -⟩ | ⟨pre', hpre, hrest⟩
    · -- the cut is in this round
      rcases List.prefix_cons_iff.1 ⟨mid, hmid.symm⟩ with rfl | ⟨seen, rfl, hseen⟩
      · exact .inl rfl
      · exact .inr ⟨[], r, rounds, seen, rfl, hseen, rfl⟩
    · rcases ih ⟨post, hrest.symm⟩ with rfl | ⟨earlier, r', later, seen, rfl, hseen, rfl⟩
      · refine .inr ⟨[], r, rounds, r.rest, rfl, List.prefix_rfl, ?_⟩
        rw [hpre, List.append_nil]
        rfl
      · refine .inr ⟨r :: earlier, r', later, seen, rfl, hseen, ?_⟩
        rw [hpre, List.flatMap_cons, List.append_assoc]

theorem log_stream (s : BusStream) : (machine.log {} s.frames).map Prod.snd =
    s.lead.map (fun _ => .ok none) ++ s.rounds.flatMap BusRound.answers := by
  rw [BusStream.frames, Mealy.log_append, List.map_append, (log_foreign {} s.mem_lead).1,
    log_rounds]

theorem emitted_stream (s : BusStream) : emitted {} s.frames =
    (s.rounds.filter fun r => r.Complete r.rest).map (fun r => r.status.rounded) := by
  have hlead : (s.lead.map fun _ => Except.ok none).filterMap
      (fun o : Except Err (Option BatteryStatus) => o.toOption.join) = [] := by
    rw [List.filterMap_map, List.filterMap_eq_nil_iff]
    exact fun _ _ => rfl
  have hmap : emitted {} s.frames =
      ((machine.log {} s.frames).map Prod.snd).filterMap (fun o => o.toOption.join) := by
    rw [List.filterMap_map]
    rfl
  rw [hmap, log_stream, List.filterMap_append, hlead, List.nil_append]
  induction s.rounds with
  | nil => rfl
  | cons r rounds ih =>
    rw [List.flatMap_cons, List.filterMap_append, filterMap_answers, ih, List.filter_cons]
    by_cases h : r.Complete r.rest
    · simp [h]
    · simp [h]

theorem run_cut (lead : List CANMessage) (earlier : List BusRound) (r : BusRound)
    {seen : List CANMessage} (hseen : seen <+: r.rest) :
    machine.run {} (lead ++ earlier.flatMap BusRound.frames ++ r.a :: seen) = r.slots seen := by
  rw [Mealy.run_append, run_round _ r hseen]

theorem pending_stream (s : BusStream) {pre : List CANMessage} (hpre : pre <+: s.frames) :
    (machine.run {} pre).pending = true ↔
      ∃ earlier r later seen, s.rounds = earlier ++ r :: later ∧ seen <+: r.rest ∧
        pre = s.lead ++ earlier.flatMap BusRound.frames ++ r.a :: seen ∧ ¬ r.Complete seen := by
  constructor
  · intro hpending
    obtain ⟨post, hpre⟩ := hpre
    rw [BusStream.frames, List.append_eq_append_iff] at hpre
    rcases hpre with ⟨mid, hmid, -⟩ | ⟨pre', rfl, hrest⟩
    · -- no round has begun
      have hforeign : ∀ m ∈ pre, Foreign m := fun m hm =>
        s.mem_lead m (by rw [hmid]; exact List.mem_append_left _ hm)
      rw [(log_foreign {} hforeign).2] at hpending
      cases hpending
    · rcases prefix_rounds ⟨post, hrest.symm⟩ with
        rfl | ⟨earlier, r, later, seen, hrounds, hseen, rfl⟩
      · rw [List.append_nil, (log_foreign {} s.mem_lead).2] at hpending
        cases hpending
      · rw [← List.append_assoc] at hpending ⊢
        rw [run_cut s.lead earlier r hseen, pending_slots] at hpending
        exact ⟨earlier, r, later, seen, hrounds, hseen, rfl, hpending⟩
  · rintro ⟨earlier, r, later, seen, -, hseen, rfl, hopen⟩
    rw [run_cut s.lead earlier r hseen, pending_slots]
    exact hopen

/-- **The trace of a stream of rounds**: what is answered to each frame, what is emitted, and when
a round is pending. -/
theorem stream_trace (s : BusStream) :
    (machine.log {} s.frames).map Prod.snd =
      s.lead.map (fun _ => .ok none) ++ s.rounds.flatMap BusRound.answers ∧
    emitted {} s.frames =
      (s.rounds.filter fun r => r.Complete r.rest).map (fun r => r.status.rounded) ∧
    ∀ pre, pre <+: s.frames → ((machine.run {} pre).pending = true ↔
      ∃ earlier r later seen, s.rounds = earlier ++ r :: later ∧ seen <+: r.rest ∧
        pre = s.lead ++ earlier.flatMap BusRound.frames ++ r.a :: seen ∧ ¬ r.Complete seen) :=
  ⟨log_stream s, emitted_stream s, fun _ => pending_stream s⟩

/-- A round of 51.2 V: binary32 has no such number. -/
def roundOfNominal : BusRound where
  status := ⟨1, .ofBits 0x404999999999999A, .ofBits 0x4028CCCCCCCCCCCD,
    .ofBits 0x403E000000000000, 85, 98, 0⟩
  a := ⟨0x200, [1, 0, 0, 0, 85, 98, 0, 0]⟩
  b := ⟨0x201, [205, 204, 76, 66, 102, 102, 70, 65]⟩
  c := ⟨0x202, [0, 0, 240, 65, 0, 0, 0, 0]⟩
  encodeA := by decide +kernel
  encodeB := by decide +kernel
  encodeC := by decide +kernel
  rest := [⟨0x201, [205, 204, 76, 66, 102, 102, 70, 65]⟩, ⟨0x202, [0, 0, 240, 65, 0, 0, 0, 0]⟩]
  mem_rest := by simp

/-- What is emitted is not the status itself when its measurements are not binary32 numbers. -/
theorem stream_not_exact : ¬ ∀ s : BusStream, emitted {} s.frames =
    (s.rounds.filter fun r => r.Complete r.rest).map (fun r => r.status) := by
  intro h
  have hstream := h ⟨[], by simp, [roundOfNominal]⟩
  exact absurd hstream (by decide +kernel)

end StatusCollector

end BattLock
