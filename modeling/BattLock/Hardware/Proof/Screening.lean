import BattLock.Can.Proof.StatusRoundTrip
import BattLock.Can.Simulation.Proof.Telemetry
import BattLock.Hardware.Proof.Interop
import BattLock.Hardware.Proof.Status

/-!
# Which statuses the two vehicles accept

The sketch and the vehicle node both refuse replayed counters and injected measurements, but the
node moves its counter first and checks more. `sketchScreen` and `nodeScreen` are the two as
functions of the statuses alone; `screens_eq_iff` says when they accept the same ones: whenever
the sketch's checks let a status pass, it is one the node calls safe, and no injected status
before it had a counter as high.
-/

namespace BattLock.Hardware

open CArray Python Ieee

/-- A status with the frames that carry it: the single one, and A, B and C. -/
structure SentStatus where
  status : BatteryStatus
  single : CANMessage
  a : CANMessage
  b : CANMessage
  c : CANMessage
  encode : encodeStatus status = .ok single
  encodeA : encodeStatusA status = .ok a
  encodeB : encodeStatusB status = .ok b
  encodeC : encodeStatusC status = .ok c

namespace SentStatus

variable (s : SentStatus)

/-- The frames as the sketch receives them. -/
def frames : List CanFrame :=
  [CanFrame.ofMessage s.a, CanFrame.ofMessage s.b, CanFrame.ofMessage s.c]

def counter : Int := s.status.counter

/-- Measurements that the sketch takes for injected. -/
def injected : Bool :=
  s.status.rounded.voltage.val.gt 100 || s.status.rounded.current.val.gt 500

/-- A status that the node's checks refuse. -/
def Unsafe : Prop := VehicleNode.Unsafe s.status.rounded

instance Unsafe.decidable : Decidable s.Unsafe :=
  inferInstanceAs (Decidable (VehicleNode.Unsafe s.status.rounded))

theorem unsafe_of_injected (h : s.injected = true) : s.Unsafe := by
  refine .inr (VehicleNode.exceeds_warn ?_)
  simp only [injected, Bool.or_eq_true] at h
  simp only [VehicleNode.exceeds, Bool.or_eq_true]
  exact .inl h

end SentStatus

/-! ## The two screens -/

/-- What the sketch accepts above a counter: an injected status leaves the counter alone. -/
def sketchScreen : Int → List SentStatus → List Bool
  | _, [] => []
  | last, s :: ss =>
    if s.injected = false ∧ last < s.counter then true :: sketchScreen s.counter ss
    else false :: sketchScreen last ss

/-- What the node accepts above a counter: every fresh status moves the counter. -/
def nodeScreen : Int → List SentStatus → List Bool
  | _, [] => []
  | last, s :: ss =>
    if last < s.counter then decide (¬ s.Unsafe) :: nodeScreen s.counter ss
    else false :: nodeScreen last ss

/-- Whenever a status that is not injected has a counter above `last` and those before it that are
not injected, the node accepts it above `last'`. -/
def Agreeing (last last' : Int) (sent : List SentStatus) : Prop :=
  ∀ earlier s later, sent = earlier ++ s :: later → s.injected = false → last < s.counter →
    (∀ t ∈ earlier, t.injected = false → t.counter < s.counter) →
    ¬ s.Unsafe ∧ last' < s.counter ∧ ∀ t ∈ earlier, t.counter < s.counter

theorem agreeing_cons {last last' : Int} {s : SentStatus} {ss : List SentStatus} :
    Agreeing last last' (s :: ss) ↔
      (s.injected = false → last < s.counter → ¬ s.Unsafe ∧ last' < s.counter) ∧
      Agreeing (if s.injected = false ∧ last < s.counter then s.counter else last)
        (if last' < s.counter then s.counter else last') ss := by
  -- the counters of the head and the last one together
  have hsketch : ∀ c : Int,
      (if s.injected = false ∧ last < s.counter then s.counter else last) < c ↔
        last < c ∧ (s.injected = false → s.counter < c) := by
    intro c
    by_cases hi : s.injected = false
    · by_cases hl : last < s.counter
      · simp only [hi, hl, and_self, ↓reduceIte, forall_const]
        omega
      · simp only [hi, hl, and_false, ↓reduceIte, forall_const]
        omega
    · simp [hi]
  have hnode : ∀ c : Int, (if last' < s.counter then s.counter else last') < c ↔
      last' < c ∧ s.counter < c := by
    intro c
    split
    · omega
    · omega
  constructor
  · intro h
    refine ⟨fun hi hl => ?_, fun earlier t later he hi hl hearlier => ?_⟩
    · obtain ⟨hsafe, hlt, -⟩ := h [] s ss rfl hi hl (by simp)
      exact ⟨hsafe, hlt⟩
    · obtain ⟨hl, hs⟩ := (hsketch _).1 hl
      obtain ⟨hsafe, hlt, hall⟩ := h (s :: earlier) t later (by rw [he]; rfl) hi hl
        (List.forall_mem_cons.2 ⟨hs, hearlier⟩)
      obtain ⟨hst, hall⟩ := List.forall_mem_cons.1 hall
      exact ⟨hsafe, (hnode _).2 ⟨hlt, hst⟩, hall⟩
  · rintro ⟨hhead, htail⟩ earlier t later he hi hl hearlier
    cases earlier with
    | nil =>
      obtain ⟨rfl, rfl⟩ := List.cons.inj he
      obtain ⟨hsafe, hlt⟩ := hhead hi hl
      exact ⟨hsafe, hlt, by simp⟩
    | cons s' earlier =>
      obtain ⟨rfl, rfl⟩ := List.cons.inj he
      obtain ⟨hs, hearlier⟩ := List.forall_mem_cons.1 hearlier
      obtain ⟨hsafe, hlt, hall⟩ := htail earlier t later rfl hi ((hsketch _).2 ⟨hl, hs⟩) hearlier
      obtain ⟨hlt, hst⟩ := (hnode _).1 hlt
      exact ⟨hsafe, hlt, List.forall_mem_cons.2 ⟨hst, hall⟩⟩

/-- **When the two accept the same statuses.** -/
theorem screens_eq_iff {last last' : Int} (hle : last ≤ last') {sent : List SentStatus} :
    sketchScreen last sent = nodeScreen last' sent ↔ Agreeing last last' sent := by
  induction sent generalizing last last' with
  | nil =>
    simp only [sketchScreen, nodeScreen, true_iff]
    intro earlier s later he
    simp at he
  | cons s ss ih =>
    rw [agreeing_cons, sketchScreen, nodeScreen]
    by_cases hpass : s.injected = false ∧ last < s.counter
    · by_cases hfresh : last' < s.counter
      · rw [if_pos hpass, if_pos hfresh, if_pos hpass, if_pos hfresh, List.cons.injEq,
          ih (Int.le_refl _)]
        refine and_congr_left' ⟨fun h _ _ => ⟨of_decide_eq_true h.symm, hfresh⟩, fun h => ?_⟩
        exact (decide_eq_true (h hpass.1 hpass.2).1).symm
      · simp [hpass, hfresh]
    · by_cases hfresh : last' < s.counter
      · have hinj : s.injected = true := by
          by_contra hinj
          exact hpass ⟨Bool.eq_false_iff.2 hinj, Int.lt_of_le_of_lt hle hfresh⟩
        have hrefused := s.unsafe_of_injected hinj
        rw [if_neg hpass, if_pos hfresh, if_neg hpass, if_pos hfresh, List.cons.injEq,
          ih (by omega)]
        simp [hrefused, hinj]
      · rw [if_neg hpass, if_neg hfresh, if_neg hpass, if_neg hfresh, List.cons.injEq, ih hle]
        have hnone : s.injected = false → ¬ last < s.counter := fun hi hl => hpass ⟨hi, hl⟩
        simp only [true_and]
        refine (and_iff_right ?_).symm
        exact fun hi hl => absurd hl (hnone hi)

/-! ## The sketch -/

theorem toList_ofMessage {m : CANMessage} (h : m.data.length = 8) :
    (CanFrame.ofMessage m).data.toList = m.data := by
  rw [CanFrame.ofMessage, CanFrame.ofBytes, toList_zeroExtend (by omega), h]
  simp

theorem SentStatus.value_a (s : SentStatus) :
    (LittleEndian.value ((CanFrame.ofMessage s.a).data.toList.take 4) : Int) = s.counter := by
  have hlen := length_encodeStatusA s.encodeA
  have hdecode := (encodeStatusA_ok s.encodeA).2
  rw [decodeStatusA, if_pos hlen, Except.ok.injEq] at hdecode
  rw [toList_ofMessage hlen]
  exact congrArg StatusA.counter hdecode

theorem SentStatus.injected_b (s : SentStatus) :
    Vehicle.injected (CanFrame.ofMessage s.b).data = s.injected := by
  have hlen := length_encodeStatusB s.encodeB
  have hdecode := (encodeStatusB_ok s.encodeB).2
  rw [decodeStatusB, if_pos hlen, Except.ok.injEq] at hdecode
  have hvoltage : widen (Vehicle.floatOf (s.b.data.take 4)) = s.status.rounded.voltage :=
    congrArg StatusB.voltage hdecode
  have hcurrent : widen (Vehicle.floatOf (slice s.b.data 4 8)) = s.status.rounded.current :=
    congrArg StatusB.current hdecode
  have hdrop : slice s.b.data 4 8 = s.b.data.drop 4 :=
    List.take_of_length_le (by rw [List.length_drop]; omega)
  rw [hdrop] at hcurrent
  rw [Vehicle.injected, SentStatus.injected, toList_ofMessage hlen, ← hvoltage, ← hcurrent,
    val_widen, val_widen]

namespace Vehicle

variable (C : Crypto) (rootCaPublicKey : Vector UInt8 65)

/-- The samples reported as valid, one truth value for each sample. -/
def accepted (v : Vehicle) (inputs : List VehicleInput) : List Bool :=
  (reports C rootCaPublicKey v inputs).map fun
    | .valid _ => true
    | _ => false

theorem reports_statusC {v : Vehicle} {input : VehicleInput} {c : CanFrame}
    (hf : input.frame = some c) (hid : c.id = canIdBatteryStatusC) (inputs : List VehicleInput) :
    reports C rootCaPublicKey v (input :: inputs) = reports C rootCaPublicKey v inputs := by
  have hstep : (machine C rootCaPublicKey).step v input = _ :=
    loop_statusC C rootCaPublicKey hf hid
  rw [reports, Mealy.log_cons, hstep]
  rfl

theorem accepted_eq {v : Vehicle} {sent : List SentStatus} {inputs : List VehicleInput}
    (hactive : v.state = .activeSession)
    (hin : inputs.map (·.frame) = (sent.flatMap SentStatus.frames).map some) :
    accepted C rootCaPublicKey v inputs = sketchScreen v.lastCounter.toNat sent := by
  induction sent generalizing v inputs with
  | nil =>
    obtain rfl : inputs = [] := List.map_eq_nil_iff.1 hin
    rfl
  | cons s sent ih =>
    rw [List.flatMap_cons, SentStatus.frames, List.map_append] at hin
    obtain ⟨inputA, rest, rfl, hA, hrest⟩ := List.map_eq_cons_iff.1 hin
    obtain ⟨inputB, rest, rfl, hB, hrest⟩ := List.map_eq_cons_iff.1 hrest
    obtain ⟨inputC, rest, rfl, hC, hrest⟩ := List.map_eq_cons_iff.1 hrest
    have hidA : (CanFrame.ofMessage s.a).id = canIdBatteryStatus := by
      rw [CanFrame.ofMessage, (encodeStatusA_ok s.encodeA).1]
      rfl
    have hidB : (CanFrame.ofMessage s.b).id = canIdBatteryStatusB := by
      rw [CanFrame.ofMessage, (encodeStatusB_ok s.encodeB).1]
      rfl
    have hidC : (CanFrame.ofMessage s.c).id = canIdBatteryStatusC := by
      rw [CanFrame.ofMessage, (encodeStatusC_ok s.encodeC).1]
      rfl
    obtain ⟨v', counter, hactive', hcounter, hlast, hreports⟩ :=
      reports_pair C rootCaPublicKey hactive hidA hidB hA hB
    have hvalue := s.value_a
    rw [← hcounter] at hvalue
    have hrest := ih hactive' hrest
    rw [accepted] at hrest
    rw [accepted, hreports, reports_statusC C rootCaPublicKey hC hidC, List.map_cons, hrest,
      sketchScreen, hlast, judge, s.injected_b, ← hvalue]
    cases hinj : s.injected with
    | true => simp
    | false =>
      by_cases hle : counter ≤ v.lastCounter
      · have hnot : ¬ (v.lastCounter.toNat : Int) < counter.toNat := by
          have := UInt32.le_iff_toNat_le.1 hle
          omega
        simp [hle, hnot]
      · have hlt : (v.lastCounter.toNat : Int) < counter.toNat := by
          have := UInt32.lt_iff_toNat_lt.1 (UInt32.not_le.1 hle)
          omega
        simp [hle, hlt]

end Vehicle

/-! ## The node -/

variable {PK : Type}

/-- A report of `VALID`. -/
def isValid : Except Err BattLock.Report → Bool
  | .ok (.valid _) => true
  | _ => false

/-- The statuses reported `VALID`, one truth value for each. -/
def nodeAccepted (self : VehicleNode PK) (sent : List SentStatus) : List Bool :=
  (VehicleNode.receiver.log self (sent.map SentStatus.single)).map fun e => isValid e.2

theorem isValid_checkContent (s : SentStatus) :
    isValid (.ok (VehicleNode.checkContent s.status.rounded)) = decide (¬ s.Unsafe) := by
  rw [Bool.eq_iff_iff, decide_eq_true_iff]
  constructor
  · intro h
    cases hcheck : VehicleNode.checkContent s.status.rounded with
    | valid t => exact (VehicleNode.checkContent_eq_valid.1 hcheck).2
    | _ =>
      rw [hcheck] at h
      cases h
  · intro h
    rw [VehicleNode.checkContent_eq_valid.2 ⟨rfl, h⟩]
    rfl

theorem nodeAccepted_eq (self : VehicleNode PK) (sent : List SentStatus) :
    nodeAccepted self sent = nodeScreen self.replay.lastCounter sent := by
  induction sent generalizing self with
  | nil => rfl
  | cons s sent ih =>
    obtain ⟨hid, -, hdecode⟩ := encodeStatus_ok s.encode
    have hstep : VehicleNode.receiver.step self s.single = _ := VehicleNode.receive_status self hid
    have hcounter : s.status.rounded.counter = s.counter := rfl
    rw [VehicleNode.handleStatus_ok self hdecode, hcounter] at hstep
    have hlog : nodeAccepted self (s :: sent) =
        isValid (VehicleNode.receiver.step self s.single).2 ::
          nodeAccepted (VehicleNode.receiver.step self s.single).1 sent := rfl
    rw [hlog, ih, hstep, nodeScreen]
    by_cases hle : s.counter ≤ self.replay.lastCounter
    · rw [if_pos hle, if_neg (Int.not_lt.2 hle)]
      rfl
    · rw [if_neg hle, if_pos (Int.not_le.1 hle), isValid_checkContent]

/-! ## Together -/

/-- **The sketch accepts what the node accepts**, of the statuses sent to both from the start of a
session, exactly if every status that passes the sketch's checks is safe for the node and has a
counter above those of all earlier statuses, injected ones included. -/
theorem accepted_iff (C : Crypto) (rootCaPublicKey : Vector UInt8 65) (v : Vehicle)
    (hactive : v.state = .activeSession) (hlast : v.lastCounter = 0) (nodeKey : Option PK)
    (sent : List SentStatus) (inputs : List VehicleInput)
    (hin : inputs.map (·.frame) = (sent.flatMap SentStatus.frames).map some) :
    v.accepted C rootCaPublicKey inputs = nodeAccepted (.init nodeKey) sent ↔
      Agreeing 0 0 sent := by
  rw [Vehicle.accepted_eq C rootCaPublicKey hactive hin, nodeAccepted_eq, hlast]
  exact screens_eq_iff (Int.le_refl 0)

/-- A status of 200 V with counter 5. -/
def sentInjected : SentStatus where
  status := ⟨5, .ofBits 0x4069000000000000, .ofBits 0x3FF0000000000000,
    .ofBits 0x3FF0000000000000, 1, 1, 0⟩
  single := ⟨0x200, [5, 0, 0, 0, 0, 0, 72, 67, 0, 0, 128, 63, 0, 0, 128, 63, 1, 1, 0]⟩
  a := ⟨0x200, [5, 0, 0, 0, 1, 1, 0, 0]⟩
  b := ⟨0x201, [0, 0, 72, 67, 0, 0, 128, 63]⟩
  c := ⟨0x202, [0, 0, 128, 63, 0, 0, 0, 0]⟩
  encode := by decide +kernel
  encodeA := by decide +kernel
  encodeB := by decide +kernel
  encodeC := by decide +kernel

/-- An ordinary status with counter 3. -/
def sentOrdinary : SentStatus where
  status := ⟨3, .ofBits 0x3FF0000000000000, .ofBits 0x3FF0000000000000,
    .ofBits 0x3FF0000000000000, 1, 1, 0⟩
  single := ⟨0x200, [3, 0, 0, 0, 0, 0, 128, 63, 0, 0, 128, 63, 0, 0, 128, 63, 1, 1, 0]⟩
  a := ⟨0x200, [3, 0, 0, 0, 1, 1, 0, 0]⟩
  b := ⟨0x201, [0, 0, 128, 63, 0, 0, 128, 63]⟩
  c := ⟨0x202, [0, 0, 128, 63, 0, 0, 0, 0]⟩
  encode := by decide +kernel
  encodeA := by decide +kernel
  encodeB := by decide +kernel
  encodeC := by decide +kernel

/-- An ordinary status, an injected one, and the ordinary one again. -/
theorem accepted_replayed :
    ({ state := .activeSession } : Vehicle).accepted .refusing (Vector.replicate 65 0)
        ((sentOrdinary.frames ++ sentInjected.frames ++ sentOrdinary.frames).map
          Vehicle.received) = [true, false, false] ∧
      nodeAccepted (.init (none : Option Unit)) [sentOrdinary, sentInjected, sentOrdinary] =
        [true, false, false] := by
  have hnode : nodeAccepted (.init (none : Option Unit))
      [sentOrdinary, sentInjected, sentOrdinary] = [true, false, false] := by
    rw [nodeAccepted_eq]
    decide +kernel
  have hsame := (accepted_iff .refusing (Vector.replicate 65 0) { state := .activeSession } rfl rfl
    (none : Option Unit) [sentOrdinary, sentInjected, sentOrdinary]
    ((sentOrdinary.frames ++ sentInjected.frames ++ sentOrdinary.frames).map Vehicle.received)
    (by rw [List.map_map]; rfl)).2
  refine ⟨(hsame ?_).trans hnode, hnode⟩
  refine agreeing_cons.2 ⟨fun _ _ => by decide +kernel, ?_⟩
  refine agreeing_cons.2 ⟨fun hinjected => absurd hinjected (by decide +kernel), ?_⟩
  refine agreeing_cons.2 ⟨fun _ hfresh => absurd hfresh (by decide +kernel), ?_⟩
  intro earlier s later he
  simp at he

/-- After an injected status, the sketch accepts a counter that the node takes for replayed. -/
theorem accepted_differ :
    ¬ ∀ (C : Crypto) (rootCaPublicKey : Vector UInt8 65) (v : Vehicle) (sent : List SentStatus)
      (inputs : List VehicleInput), v.state = .activeSession → v.lastCounter = 0 →
      inputs.map (·.frame) = (sent.flatMap SentStatus.frames).map some →
      v.accepted C rootCaPublicKey inputs = nodeAccepted (.init (none : Option Unit)) sent := by
  intro h
  have hin : ((sentInjected.frames ++ sentOrdinary.frames).map Vehicle.received).map (·.frame) =
      ([sentInjected, sentOrdinary].flatMap SentStatus.frames).map some := by
    rw [List.map_map]
    rfl
  have hboth := h .refusing (Vector.replicate 65 0) { state := .activeSession } _ _
    rfl rfl hin
  rw [Vehicle.accepted_eq _ _ rfl hin, nodeAccepted_eq] at hboth
  exact absurd hboth (by decide +kernel)

end BattLock.Hardware
