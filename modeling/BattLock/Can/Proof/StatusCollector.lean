import BattLock.Can.Proof.StatusCodec
import BattLock.Can.StatusCollector
import BattLock.Lib.Mealy

/-!
# Which status the collector emits

A telemetry round is frames A, B and C of one status, of which the channel delivers some. The
collector opens a round at frame A and closes it at the first moment it holds a B and a C, without
looking at which round they are of: a round whose own B or C is lost is completed by those of a
later round whose A is lost. `noMix` says of a loss pattern that this never happens, and
`emitsSent_iff_noMix` that it is exactly the patterns under which only sent statuses are emitted.
-/

namespace BattLock

open Python

/-! ## Rounds and what is delivered of them -/

/-- Which frames of a round are delivered. -/
structure Delivery where
  a : Bool
  b : Bool
  c : Bool
deriving DecidableEq

/-- A round: its status, the three frames that encode it and which of them are delivered. -/
structure Round where
  status : BatteryStatus
  a : CANMessage
  b : CANMessage
  c : CANMessage
  encodeA : encodeStatusA status = .ok a
  encodeB : encodeStatusB status = .ok b
  encodeC : encodeStatusC status = .ok c
  delivery : Delivery

/-- The delivered frames of a round, in the order they are sent. -/
def Round.frames (r : Round) : List CANMessage :=
  (if r.delivery.a then [r.a] else []) ++ (if r.delivery.b then [r.b] else []) ++
    (if r.delivery.c then [r.c] else [])

/-- The round when the channel delivers `d` of it. -/
def Round.deliver (r : Round) (d : Delivery) : Round := { r with delivery := d }

namespace StatusCollector

/-- The collector, fed one frame at a time. -/
def machine : Mealy StatusCollector CANMessage (Except Err (Option BatteryStatus)) where
  step := feed

/-- The statuses emitted while a sequence of frames is fed. -/
def emitted (self : StatusCollector) (frames : List CANMessage) : List BatteryStatus :=
  (machine.log self frames).filterMap fun e => e.2.toOption.join

/-- A frame B comes before the next frame A. -/
def bFirst : List Delivery → Bool
  | [] => false
  | d :: ds => !d.a && (d.b || bFirst ds)

/-- A frame C comes before the next frame A. -/
def cFirst : List Delivery → Bool
  | [] => false
  | d :: ds => !d.a && (d.c || cFirst ds)

/-- The A of a round is delivered and its own B or C is lost, but the frames it lacks come before
the next A. -/
def completedLater (d : Delivery) (ds : List Delivery) : Bool :=
  d.a && !(d.b && d.c) && (d.b || bFirst ds) && (d.c || cFirst ds)

/-- No round is completed by the frames of later ones. -/
def noMix : List Delivery → Bool
  | [] => true
  | d :: ds => !completedLater d ds && noMix ds

/-! ## One frame -/

@[simp] theorem emit_a_none (b c : Option CANMessage) :
    emit ⟨none, b, c⟩ = (⟨none, b, c⟩, .ok none) := rfl

@[simp] theorem emit_b_none (a c : Option CANMessage) :
    emit ⟨a, none, c⟩ = (⟨a, none, c⟩, .ok none) := by
  cases a <;> rfl

@[simp] theorem emit_c_none (a b : Option CANMessage) :
    emit ⟨a, b, none⟩ = (⟨a, b, none⟩, .ok none) := by
  cases a <;> cases b <;> rfl

theorem emit_combine {sa sb sc : BatteryStatus} {a b c : CANMessage}
    (ha : encodeStatusA sa = .ok a) (hb : encodeStatusB sb = .ok b)
    (hc : encodeStatusC sc = .ok c) :
    emit ⟨some a, some b, some c⟩ = ({}, .ok (some (sa.combine sb sc))) := by
  simp only [emit, statusFromFrames_ok ha hb hc]
  rfl

section
variable (self : StatusCollector) {m : CANMessage}

theorem feed_of_idA (h : m.arbitrationId = CanId.batteryStatusA) :
    feed self m = (⟨some m, none, none⟩, .ok none) := by
  rw [feed, if_pos h, emit_b_none]

theorem feed_of_idB (h : m.arbitrationId = CanId.batteryStatusB) :
    feed self m = emit (if self.a.isSome then { self with b := some m } else self) := by
  rw [feed, if_neg (by rw [h]; decide), if_pos h]

theorem feed_of_idC (h : m.arbitrationId = CanId.batteryStatusC) :
    feed self m = emit (if self.a.isSome then { self with c := some m } else self) := by
  rw [feed, if_neg (by rw [h]; decide), if_neg (by rw [h]; decide), if_pos h]

/-- Not a frame of a telemetry round. -/
def Foreign (m : CANMessage) : Prop :=
  m.arbitrationId ≠ CanId.batteryStatusA ∧ m.arbitrationId ≠ CanId.batteryStatusB ∧
    m.arbitrationId ≠ CanId.batteryStatusC

theorem feed_of_foreign (h : Foreign m) : feed self m = (self, .ok none) := by
  rw [feed, if_neg h.1, if_neg h.2.1, if_neg h.2.2]

end

section
variable (r : Round)

@[simp] theorem feed_a (self : StatusCollector) :
    feed self r.a = (⟨some r.a, none, none⟩, .ok none) :=
  feed_of_idA self (encodeStatusA_ok r.encodeA).1

@[simp] theorem feed_b (self : StatusCollector) :
    feed self r.b = emit (if self.a.isSome then { self with b := some r.b } else self) :=
  feed_of_idB self (encodeStatusB_ok r.encodeB).1

@[simp] theorem feed_c (self : StatusCollector) :
    feed self r.c = emit (if self.a.isSome then { self with c := some r.c } else self) :=
  feed_of_idC self (encodeStatusC_ok r.encodeC).1

end

/-! ## One round -/

@[simp] theorem emitted_nil (self : StatusCollector) : emitted self [] = [] := rfl

@[simp] theorem emitted_cons (self : StatusCollector) (f : CANMessage) (fs : List CANMessage) :
    emitted self (f :: fs) =
      (feed self f).2.toOption.join.toList ++ emitted (feed self f).1 fs := by
  have hstep : machine.step self f = feed self f := rfl
  rw [emitted, Mealy.log_cons, List.filterMap_cons, hstep]
  cases (feed self f).2.toOption.join <;> rfl

theorem emitted_append (self : StatusCollector) (fs gs : List CANMessage) :
    emitted self (fs ++ gs) = emitted self fs ++ emitted (machine.run self fs) gs := by
  rw [emitted, Mealy.log_append, List.filterMap_append]
  rfl

/-- Nothing that is still to come completes the open round. -/
def Safe (self : StatusCollector) (ds : List Delivery) : Prop :=
  self = {} ∨ ∃ a, self.a = some a ∧
    (self.b = none ∧ bFirst ds = false ∨ self.c = none ∧ cFirst ds = false)

/-- A round whose A is delivered: the open round is discarded, and what is emitted is its own
status. -/
theorem round_opened (self : StatusCollector) {r : Round} {ds : List Delivery}
    (ha : r.delivery.a = true) (hmix : noMix (r.delivery :: ds) = true) :
    Safe (machine.run self r.frames) ds ∧
      ∀ s ∈ emitted self r.frames, s = r.status.rounded := by
  have hrun := emit_combine r.encodeA r.encodeB r.encodeC
  rw [noMix, completedLater, ha] at hmix
  cases hb : r.delivery.b <;> cases hc : r.delivery.c <;>
    simp_all [Round.frames, machine, Safe, Except.toOption, BatteryStatus.combine_self]

/-- A round whose A is lost: the open round, if any, is not completed by its B or C. -/
theorem round_lost {self : StatusCollector} {r : Round} {ds : List Delivery}
    (ha : r.delivery.a = false) (hsafe : Safe self (r.delivery :: ds)) :
    Safe (machine.run self r.frames) ds ∧ emitted self r.frames = [] := by
  obtain ⟨sa, sb, sc⟩ := self
  rcases hsafe with h | ⟨a, rfl, ⟨rfl, h⟩ | ⟨rfl, h⟩⟩
  · cases h
    cases hb : r.delivery.b <;> cases hc : r.delivery.c <;>
      simp [Round.frames, machine, Safe, Except.toOption, ha, hb, hc]
  · simp only [bFirst, ha, Bool.not_false, Bool.true_and, Bool.or_eq_false_iff] at h
    cases hc : r.delivery.c <;>
      simp [Round.frames, machine, Safe, Except.toOption, ha, h, hc]
  · simp only [cFirst, ha, Bool.not_false, Bool.true_and, Bool.or_eq_false_iff] at h
    cases hb : r.delivery.b <;>
      simp [Round.frames, machine, Safe, Except.toOption, ha, h, hb]

/-! ## Patterns without a mix -/

theorem emitted_sent : ∀ {rounds : List Round} {self : StatusCollector},
    Safe self (rounds.map Round.delivery) → noMix (rounds.map Round.delivery) = true →
    ∀ s ∈ emitted self (rounds.flatMap Round.frames), ∃ r ∈ rounds, s = r.status.rounded
  | [], _, _, _, s, hs => by cases hs
  | r :: rounds, self, hsafe, hmix, s, hs => by
    have hrest : noMix (rounds.map Round.delivery) = true := by
      simp only [List.map_cons, noMix, Bool.and_eq_true] at hmix
      exact hmix.2
    rw [List.flatMap_cons, emitted_append, List.mem_append] at hs
    cases ha : r.delivery.a with
    | true =>
      obtain ⟨hsafe', hr⟩ := round_opened self ha hmix
      rcases hs with hs | hs
      · exact ⟨r, List.mem_cons_self, hr s hs⟩
      · obtain ⟨r', hr', he⟩ := emitted_sent hsafe' hrest s hs
        exact ⟨r', List.mem_cons_of_mem _ hr', he⟩
    | false =>
      obtain ⟨hsafe', hr⟩ := round_lost ha hsafe
      rw [hr] at hs
      obtain ⟨r', hr', he⟩ := emitted_sent hsafe' hrest s (by simpa using hs)
      exact ⟨r', List.mem_cons_of_mem _ hr', he⟩

/-! ## Patterns with a mix

At a round where `noMix` fails, what is emitted combines its counter with the measurements of a
later round. -/

/-- `s` is the status of one of `rounds`. -/
def SentIn (rounds : List Round) (s : BatteryStatus) : Prop := ∃ r ∈ rounds, r.status = s

theorem SentIn.cons {rounds : List Round} {s : BatteryStatus} (h : SentIn rounds s) (r : Round) :
    SentIn (r :: rounds) s :=
  let ⟨r', hr', he⟩ := h
  ⟨r', List.mem_cons_of_mem _ hr', he⟩

theorem sentIn_head (r : Round) (rounds : List Round) : SentIn (r :: rounds) r.status :=
  ⟨r, List.mem_cons_self, rfl⟩

section
variable {x : BatteryStatus} {a : CANMessage}

/-- A round that waits for a C which comes before the next A gets that of a later round. -/
theorem emitted_of_waiting_c (hx : encodeStatusA x = .ok a) :
    ∀ {rounds : List Round} {sb : BatteryStatus} {b : CANMessage},
      encodeStatusB sb = .ok b → cFirst (rounds.map Round.delivery) = true →
      ∃ sb sc, SentIn rounds sc ∧
        x.combine sb sc ∈ emitted ⟨some a, some b, none⟩ (rounds.flatMap Round.frames)
  | [], _, _, _, h => by cases h
  | r :: rounds, sb, b, hb, h => by
    simp only [List.map_cons, cFirst, Bool.and_eq_true, Bool.not_eq_true', Bool.or_eq_true] at h
    obtain ⟨ha, h⟩ := h
    rw [List.flatMap_cons, emitted_append]
    cases hrc : r.delivery.c with
    | true =>
      -- completed here, by the C of `r` and its B or the one waiting
      cases hrb : r.delivery.b with
      | true =>
        refine ⟨r.status, r.status, sentIn_head r _, List.mem_append_left _ ?_⟩
        simp [Round.frames, ha, hrb, hrc, emit_combine hx r.encodeB r.encodeC, Except.toOption]
      | false =>
        refine ⟨sb, r.status, sentIn_head r _, List.mem_append_left _ ?_⟩
        simp [Round.frames, ha, hrb, hrc, emit_combine hx hb r.encodeC, Except.toOption]
    | false =>
      cases hrb : r.delivery.b with
      | true =>
        obtain ⟨sb', sc, hsc, hs⟩ := emitted_of_waiting_c hx r.encodeB (by simpa [hrc] using h)
        refine ⟨sb', sc, hsc.cons r, List.mem_append_right _ ?_⟩
        simpa [Round.frames, ha, hrb, hrc, machine] using hs
      | false =>
        obtain ⟨sb', sc, hsc, hs⟩ := emitted_of_waiting_c hx hb (by simpa [hrc] using h)
        refine ⟨sb', sc, hsc.cons r, List.mem_append_right _ ?_⟩
        simpa [Round.frames, ha, hrb, hrc, machine] using hs

theorem emitted_of_waiting_b (hx : encodeStatusA x = .ok a) :
    ∀ {rounds : List Round} {sc : BatteryStatus} {c : CANMessage},
      encodeStatusC sc = .ok c → bFirst (rounds.map Round.delivery) = true →
      ∃ sb sc, SentIn rounds sb ∧
        x.combine sb sc ∈ emitted ⟨some a, none, some c⟩ (rounds.flatMap Round.frames)
  | [], _, _, _, h => by cases h
  | r :: rounds, sc, c, hc, h => by
    simp only [List.map_cons, bFirst, Bool.and_eq_true, Bool.not_eq_true', Bool.or_eq_true] at h
    obtain ⟨ha, h⟩ := h
    rw [List.flatMap_cons, emitted_append]
    cases hrb : r.delivery.b with
    | true =>
      -- completed here: the B of `r` comes before its C
      refine ⟨r.status, sc, sentIn_head r _, List.mem_append_left _ ?_⟩
      cases hrc : r.delivery.c <;>
        simp [Round.frames, ha, hrb, hrc, emit_combine hx r.encodeB hc, Except.toOption]
    | false =>
      cases hrc : r.delivery.c with
      | true =>
        obtain ⟨sb, sc', hsb, hs⟩ := emitted_of_waiting_b hx r.encodeC (by simpa [hrb] using h)
        refine ⟨sb, sc', hsb.cons r, List.mem_append_right _ ?_⟩
        simpa [Round.frames, ha, hrb, hrc, machine] using hs
      | false =>
        obtain ⟨sb, sc', hsb, hs⟩ := emitted_of_waiting_b hx hc (by simpa [hrb] using h)
        refine ⟨sb, sc', hsb.cons r, List.mem_append_right _ ?_⟩
        simpa [Round.frames, ha, hrb, hrc, machine] using hs

theorem emitted_of_waiting (hx : encodeStatusA x = .ok a) : ∀ {rounds : List Round},
    bFirst (rounds.map Round.delivery) = true → cFirst (rounds.map Round.delivery) = true →
    ∃ sb sc, (SentIn rounds sb ∨ SentIn rounds sc) ∧
      x.combine sb sc ∈ emitted ⟨some a, none, none⟩ (rounds.flatMap Round.frames)
  | [], h, _ => by cases h
  | r :: rounds, hb, hc => by
    simp only [List.map_cons, bFirst, cFirst, Bool.and_eq_true, Bool.not_eq_true',
      Bool.or_eq_true] at hb hc
    obtain ⟨ha, hb⟩ := hb
    replace hc := hc.2
    rw [List.flatMap_cons, emitted_append]
    cases hrb : r.delivery.b with
    | true =>
      cases hrc : r.delivery.c with
      | true =>
        refine ⟨r.status, r.status, .inl (sentIn_head r _), List.mem_append_left _ ?_⟩
        simp [Round.frames, ha, hrb, hrc, emit_combine hx r.encodeB r.encodeC, Except.toOption]
      | false =>
        obtain ⟨sb, sc, hsc, hs⟩ := emitted_of_waiting_c hx r.encodeB (by simpa [hrc] using hc)
        refine ⟨sb, sc, .inr (hsc.cons r), List.mem_append_right _ ?_⟩
        simpa [Round.frames, ha, hrb, hrc, machine] using hs
    | false =>
      cases hrc : r.delivery.c with
      | true =>
        obtain ⟨sb, sc, hsb, hs⟩ := emitted_of_waiting_b hx r.encodeC (by simpa [hrb] using hb)
        refine ⟨sb, sc, .inl (hsb.cons r), List.mem_append_right _ ?_⟩
        simpa [Round.frames, ha, hrb, hrc, machine] using hs
      | false =>
        obtain ⟨sb, sc, hlater, hs⟩ :=
          emitted_of_waiting hx (by simpa [hrb] using hb) (by simpa [hrc] using hc)
        refine ⟨sb, sc, hlater.imp (·.cons r) (·.cons r), List.mem_append_right _ ?_⟩
        simpa [Round.frames, ha, hrb, hrc, machine] using hs

end

theorem emitted_completedLater (earlier : List Round) {r : Round} {later : List Round}
    (h : completedLater r.delivery (later.map Round.delivery) = true) :
    ∃ sb sc, (SentIn later sb ∨ SentIn later sc) ∧
      r.status.combine sb sc ∈ emitted {} ((earlier ++ r :: later).flatMap Round.frames) := by
  suffices hmix : ∀ self, ∃ sb sc, (SentIn later sb ∨ SentIn later sc) ∧
      r.status.combine sb sc ∈
        emitted (machine.run self r.frames) (later.flatMap Round.frames) by
    obtain ⟨sb, sc, hlater, hs⟩ := hmix (machine.run {} (earlier.flatMap Round.frames))
    refine ⟨sb, sc, hlater, ?_⟩
    rw [List.flatMap_append, List.flatMap_cons, emitted_append, emitted_append]
    exact List.mem_append_right _ (List.mem_append_right _ hs)
  intro self
  simp only [completedLater, Bool.and_eq_true, Bool.not_eq_true', Bool.or_eq_true] at h
  obtain ⟨⟨⟨ha, hbc⟩, hb⟩, hc⟩ := h
  cases hrb : r.delivery.b with
  | true =>
    have hrc : r.delivery.c = false := by simpa [hrb] using hbc
    obtain ⟨sb, sc, hsc, hs⟩ := emitted_of_waiting_c r.encodeA r.encodeB (by simpa [hrc] using hc)
    refine ⟨sb, sc, .inr hsc, ?_⟩
    simpa [Round.frames, ha, hrb, hrc, machine] using hs
  | false =>
    have hb' : bFirst (later.map Round.delivery) = true := by simpa [hrb] using hb
    cases hrc : r.delivery.c with
    | true =>
      obtain ⟨sb, sc, hsb, hs⟩ := emitted_of_waiting_b r.encodeA r.encodeC hb'
      refine ⟨sb, sc, .inl hsb, ?_⟩
      simpa [Round.frames, ha, hrb, hrc, machine] using hs
    | false =>
      obtain ⟨sb, sc, hlater, hs⟩ := emitted_of_waiting r.encodeA hb' (by simpa [hrc] using hc)
      refine ⟨sb, sc, hlater, ?_⟩
      simpa [Round.frames, ha, hrb, hrc, machine] using hs

theorem exists_completedLater : ∀ {ds : List Delivery}, noMix ds = false →
    ∃ earlier d later, ds = earlier ++ d :: later ∧ completedLater d later = true
  | [], h => by cases h
  | d :: ds, h => by
    cases hd : completedLater d ds with
    | true => exact ⟨[], d, ds, rfl, hd⟩
    | false =>
      obtain ⟨earlier, d', later, rfl, hd'⟩ := exists_completedLater (by simpa [noMix, hd] using h)
      exact ⟨d :: earlier, d', later, rfl, hd'⟩

/-! ## The two directions together -/

/-- The collector emits only what was sent, up to the rounding to binary32. -/
def EmitsSent (rounds : List Round) : Prop :=
  ∀ s ∈ emitted {} (rounds.flatMap Round.frames), ∃ r ∈ rounds, s = r.status.rounded

/-- Two statuses that differ in what each of the frames A, B and C carries. -/
def Distinct (s s' : BatteryStatus) : Prop :=
  s.counter ≠ s'.counter ∧ Ieee.round32 s.voltage ≠ Ieee.round32 s'.voltage ∧
    Ieee.round32 s.temperature ≠ Ieee.round32 s'.temperature

theorem Distinct.symm {s s' : BatteryStatus} (h : Distinct s s') : Distinct s' s :=
  ⟨h.1.symm, h.2.1.symm, h.2.2.symm⟩

/-- A combination that is a sent status has all three parts from it. -/
theorem combine_ne_rounded {s sb sc s' : BatteryStatus} (hne : Distinct s sb ∨ Distinct s sc)
    (hs' : s' = s ∨ Distinct s s') : s.combine sb sc ≠ s'.rounded := by
  intro h
  rcases hs' with rfl | hs'
  · rcases hne with hne | hne
    · exact hne.2.1 (congrArg BatteryStatus.voltage h).symm
    · exact hne.2.2 (congrArg BatteryStatus.temperature h).symm
  · have hcounter : (s.combine sb sc).counter = s'.rounded.counter := by rw [h]
    exact hs'.1 hcounter

/-- A round completed by later ones of other statuses makes the collector emit what was not
sent. -/
theorem not_emitsSent {earlier later : List Round} {r : Round}
    (h : completedLater r.delivery (later.map Round.delivery) = true)
    (hearlier : ∀ r' ∈ earlier, Distinct r.status r'.status)
    (hlater : ∀ r' ∈ later, Distinct r.status r'.status) :
    ¬ EmitsSent (earlier ++ r :: later) := by
  intro hsent
  obtain ⟨sb, sc, hmix, hs⟩ := emitted_completedLater earlier h
  obtain ⟨r', hr', he⟩ := hsent _ hs
  have hd : ∀ s, SentIn later s → Distinct r.status s := by
    rintro _ ⟨r'', hr'', rfl⟩
    exact hlater r'' hr''
  refine combine_ne_rounded (hmix.imp (hd sb) (hd sc)) ?_ he
  rcases List.mem_append.1 hr' with hr' | hr'
  · exact .inr (hearlier r' hr')
  · rcases List.mem_cons.1 hr' with rfl | hr'
    · exact .inl rfl
    · exact .inr (hlater r' hr')

theorem noMix_of_emitsSent {rounds : List Round}
    (hdist : rounds.Pairwise fun r r' => Distinct r.status r'.status) (h : EmitsSent rounds) :
    noMix (rounds.map Round.delivery) = true := by
  by_contra hmix
  obtain ⟨_, _, _, hds, hlater⟩ := exists_completedLater (Bool.eq_false_iff.2 hmix)
  obtain ⟨earlier, rest, rfl, rfl, hrest⟩ := List.map_eq_append_iff.1 hds
  obtain ⟨r, later, rfl, rfl, rfl⟩ := List.map_eq_cons_iff.1 hrest
  obtain ⟨-, hrl, hel⟩ := List.pairwise_append.1 hdist
  exact not_emitsSent hlater (fun r' hr' => (hel r' hr' r List.mem_cons_self).symm)
    (List.pairwise_cons.1 hrl).1 h

/-- A round of the status with counter 1, 1 V, 1 A and 1 °C. -/
def roundOfOnes : Round where
  status := ⟨1, .ofBits 0x3FF0000000000000, .ofBits 0x3FF0000000000000,
    .ofBits 0x3FF0000000000000, 1, 1, 0⟩
  a := ⟨0x200, [1, 0, 0, 0, 1, 1, 0, 0]⟩
  b := ⟨0x201, [0, 0, 128, 63, 0, 0, 128, 63]⟩
  c := ⟨0x202, [0, 0, 128, 63, 0, 0, 0, 0]⟩
  encodeA := by decide +kernel
  encodeB := by decide +kernel
  encodeC := by decide +kernel
  delivery := ⟨true, true, true⟩

/-- A round of the status with counter 2, 2 V, 2 A and 2 °C. -/
def roundOfTwos : Round where
  status := ⟨2, .ofBits 0x4000000000000000, .ofBits 0x4000000000000000,
    .ofBits 0x4000000000000000, 2, 2, 0⟩
  a := ⟨0x200, [2, 0, 0, 0, 2, 2, 0, 0]⟩
  b := ⟨0x201, [0, 0, 0, 64, 0, 0, 0, 64]⟩
  c := ⟨0x202, [0, 0, 0, 64, 0, 0, 0, 0]⟩
  encodeA := by decide +kernel
  encodeB := by decide +kernel
  encodeC := by decide +kernel
  delivery := ⟨true, true, true⟩

theorem distinct_ones_twos : Distinct roundOfOnes.status roundOfTwos.status := by
  refine ⟨by decide, ?_, ?_⟩ <;> decide +kernel

/-- **Exactly the loss patterns without a mix are safe**: under such a pattern the collector emits
only sent statuses, whatever they are; under any other pattern some statuses make it emit one that
was not sent, and statuses that differ in every frame always do. -/
theorem emitsSent_iff_noMix (ds : List Delivery) :
    ((∀ rounds : List Round, rounds.map Round.delivery = ds → EmitsSent rounds) ↔
      noMix ds = true) ∧
    ∀ rounds : List Round, rounds.map Round.delivery = ds →
      (rounds.Pairwise fun r r' => Distinct r.status r'.status) →
        (EmitsSent rounds ↔ noMix ds = true) := by
  have hsent : ∀ rounds : List Round, rounds.map Round.delivery = ds → noMix ds = true →
      EmitsSent rounds := by
    rintro rounds rfl hmix
    exact emitted_sent (.inl rfl) hmix
  refine ⟨⟨fun h => ?_, fun hmix rounds hds => hsent rounds hds hmix⟩,
    fun rounds hds hdist => ⟨fun h => ?_, hsent rounds hds⟩⟩
  · -- the round completed later is of ones, all others are of twos
    by_contra hmix
    obtain ⟨earlier, d, later, rfl, hlater⟩ := exists_completedLater (Bool.eq_false_iff.2 hmix)
    have hmap : ∀ ds : List Delivery, (ds.map roundOfTwos.deliver).map Round.delivery = ds := by
      intro ds
      rw [List.map_map]
      exact List.map_id ds
    have hdist : ∀ ds : List Delivery, ∀ r ∈ ds.map roundOfTwos.deliver,
        Distinct roundOfOnes.status r.status := by
      intro ds r hr
      obtain ⟨_, -, rfl⟩ := List.mem_map.1 hr
      exact distinct_ones_twos
    refine not_emitsSent (r := roundOfOnes.deliver d) ?_ (hdist earlier) (hdist later) (h _ ?_)
    · rw [hmap]; exact hlater
    · rw [List.map_append, List.map_cons, hmap, hmap]; rfl
  · rw [← hds]
    exact noMix_of_emitsSent hdist h

/-- A round loses its C, the next one its A and B: the collector joins the two. -/
theorem emitsSent_fails :
    ¬ ∀ rounds : List Round, EmitsSent rounds := by
  intro h
  have hmem : roundOfOnes.status.combine roundOfOnes.status roundOfTwos.status ∈
      emitted {} ([roundOfOnes.deliver ⟨true, true, false⟩,
        roundOfTwos.deliver ⟨false, false, true⟩].flatMap Round.frames) := by
    decide +kernel
  obtain ⟨r, hr, he⟩ := h _ _ hmem
  simp only [List.mem_cons, List.not_mem_nil, or_false] at hr
  rcases hr with rfl | rfl
  · exact absurd he (by decide +kernel)
  · exact absurd he (by decide +kernel)

end StatusCollector

end BattLock
