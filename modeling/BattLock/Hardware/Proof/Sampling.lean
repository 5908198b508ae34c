import BattLock.Can.Proof.CollectorState
import BattLock.Hardware.Proof.Interop
import BattLock.Hardware.Proof.Status

/-!
# When the vehicle samples, and when the collector emits

The vehicle sketch and the status collector receive the same status frames. The collector waits
for A, B and C of a round, the sketch samples at the first B after an A and never looks at a C.
`mirrored` says of a sequence of frames that the two agree on every frame of it: a C comes between
an A and the first B after it. `samples_iff_mirrored`: these are exactly the sequences on which
the sketch takes its samples where the collector emits, with the same counters. Among frames of
full length they are the sequences without a B directly after an A (`mirrored_iff_isChain`), so
the order A, B, C is never one of them.
-/

namespace BattLock.Hardware

open CArray Python StatusCollector

/-- What a sequence of status frames has come to: no round that waits for a B, a flag left over
from before the session, or a round with its A and the last C since. -/
inductive Waiting
  | closed
  | stale
  | round (a : CanFrame) (c : Option CanFrame)

/-- The collector can read a round: a C is there, and the frames are long enough. -/
def readable (a b : CanFrame) : Option CanFrame → Bool
  | some c => 8 ≤ a.len && 8 ≤ b.len && 4 ≤ c.len
  | none => false

/-- At a B the sketch and the collector do the same: both nothing, or sample and emit. -/
def Waiting.agrees : Waiting → CanFrame → Bool
  | .closed, _ => true
  | .stale, _ => false
  | .round a c, b => readable a b c

def Waiting.withC : Waiting → CanFrame → Waiting
  | .closed, _ => .closed
  | .stale, _ => .stale
  | .round a _, c => .round a (some c)

/-- The two agree at every B of a sequence of frames. -/
def mirrored : Waiting → List CanFrame → Bool
  | _, [] => true
  | w, f :: fs =>
    if f.id = canIdBatteryStatus then mirrored (.round f none) fs
    else if f.id = Vehicle.canIdBatteryStatusB then w.agrees f && mirrored .closed fs
    else mirrored (w.withC f) fs

/-- A frame of telemetry. -/
def IsStatus (f : CanFrame) : Prop :=
  f.id = canIdBatteryStatus ∨ f.id = Vehicle.canIdBatteryStatusB ∨ f.id = canIdBatteryStatusC

/-! ## Full frames -/

/-- All frames of the round have their full length, and no flag is left over. -/
def Waiting.Full : Waiting → Prop
  | .closed => True
  | .stale => False
  | .round a c => 8 ≤ a.len ∧ ∀ c', c = some c' → 8 ≤ c'.len

theorem Waiting.Full.agrees_iff {w : Waiting} (h : w.Full) {b : CanFrame} (hb : 8 ≤ b.len) :
    w.agrees b = true ↔ ∀ a, w ≠ .round a none := by
  cases w with
  | closed => simp [Waiting.agrees]
  | stale => exact h.elim
  | round a c =>
    cases c with
    | none => simp [Waiting.agrees, readable]
    | some c =>
      have h4 : (4 : UInt8) ≤ c.len := UInt8.le_trans (by decide) (h.2 c rfl)
      simp [Waiting.agrees, readable, h.1, hb, h4]

theorem Waiting.Full.withC {w : Waiting} (h : w.Full) {f : CanFrame} (hf : 8 ≤ f.len) :
    (w.withC f).Full := by
  cases w with
  | closed => trivial
  | stale => exact h.elim
  | round a c =>
    refine ⟨h.1, ?_⟩
    rintro _ ⟨⟩
    exact hf

theorem Waiting.withC_ne (w : Waiting) (f a : CanFrame) : w.withC f ≠ .round a none := by
  cases w <;> simp [Waiting.withC]

/-- **Among frames of full length, the mirrored sequences are those without a B directly after an
A.** -/
theorem mirrored_iff_isChain {frames : List CanFrame} (hlen : ∀ f ∈ frames, 8 ≤ f.len) :
    mirrored .closed frames = true ↔
      frames.IsChain fun f g =>
        ¬ (f.id = canIdBatteryStatus ∧ g.id = Vehicle.canIdBatteryStatusB) := by
  -- what the state says of the frame before: only an A with no C since forbids a B
  suffices h : ∀ w : Waiting, w.Full → (mirrored w frames = true ↔ (∀ a, w = .round a none →
      ∀ g ∈ frames.head?, g.id ≠ Vehicle.canIdBatteryStatusB) ∧
        frames.IsChain fun f g =>
          ¬ (f.id = canIdBatteryStatus ∧ g.id = Vehicle.canIdBatteryStatusB)) by
    simpa using h .closed trivial
  induction frames with
  | nil => simp [mirrored]
  | cons f frames ih =>
    intro w hw
    have hne : canIdBatteryStatus ≠ Vehicle.canIdBatteryStatusB := by decide
    have hf : 8 ≤ f.len := hlen f List.mem_cons_self
    have hrest := ih fun g hg => hlen g (List.mem_cons_of_mem _ hg)
    rw [mirrored, List.isChain_cons]
    by_cases hA : f.id = canIdBatteryStatus
    · rw [if_pos hA, hrest (.round f none) ⟨hf, by simp⟩]
      simp [hA, hne]
    by_cases hB : f.id = Vehicle.canIdBatteryStatusB
    · rw [if_neg hA, if_pos hB, Bool.and_eq_true, hrest .closed trivial, hw.agrees_iff hf]
      simp [hB, hne.symm]
    · rw [if_neg hA, if_neg hB, hrest _ (hw.withC hf)]
      simp [hA, hB, Waiting.withC_ne]

/-! ## The two traces -/

/-- What the collector emits at each frame: the counter of the status, if there is one. -/
def emissions (self : StatusCollector) (frames : List CanFrame) : List (Option Int) :=
  (StatusCollector.machine.log self (frames.map CanFrame.toMessage)).map
    fun e => e.2.toOption.join.map BatteryStatus.counter

namespace Vehicle

variable (C : Crypto) (rootCaPublicKey : Vector UInt8 65)

/-- The counter of the sample taken in a call of `loop()`, if `handle_status_b` ran. -/
def sample (v : Vehicle) (input : VehicleInput) : Option Int :=
  if (Event.reports (loop C rootCaPublicKey v input).2).isEmpty then none
  else some v.pendingCounter.toNat

/-- The samples at each input of a run. -/
def samples (v : Vehicle) : List VehicleInput → List (Option Int)
  | [] => []
  | input :: inputs =>
    v.sample C rootCaPublicKey input ::
      samples (loop C rootCaPublicKey v input).1 inputs

/-! ## One frame on both sides -/

section
variable {f : CanFrame}

theorem toMessage_idA (h : f.id = canIdBatteryStatus) :
    f.toMessage.arbitrationId = CanId.batteryStatusA := by
  rw [CanFrame.toMessage, h]
  rfl

theorem toMessage_idB (h : f.id = canIdBatteryStatusB) :
    f.toMessage.arbitrationId = CanId.batteryStatusB := by
  rw [CanFrame.toMessage, h]
  rfl

theorem toMessage_idC (h : f.id = canIdBatteryStatusC) :
    f.toMessage.arbitrationId = CanId.batteryStatusC := by
  rw [CanFrame.toMessage, h]
  rfl

theorem le_length_toMessage {n : UInt8} (hn : n ≤ 8) :
    n.toNat ≤ f.toMessage.data.length ↔ n ≤ f.len := by
  have h8 : n.toNat ≤ 8 := UInt8.le_iff_toNat_le.1 hn
  rw [CanFrame.toMessage, List.length_take, Vector.length_toList, UInt8.le_iff_toNat_le]
  omega

theorem decodable_iff {a b c : CanFrame} :
    Decodable (a.toMessage, b.toMessage, c.toMessage) ↔ readable a b (some c) = true := by
  have hle : ∀ f : CanFrame, f.toMessage.data.length ≤ 8 := by
    intro f
    rw [CanFrame.toMessage, List.length_take, Vector.length_toList]
    omega
  have h8 : ∀ f : CanFrame, f.toMessage.data.length = 8 ↔ 8 ≤ f.len := by
    intro f
    rw [← le_length_toMessage (by decide)]
    have := hle f
    exact ⟨Nat.le_of_eq ∘ Eq.symm, Nat.le_antisymm this⟩
  have h4 : 4 ≤ c.toMessage.data.length ↔ 4 ≤ c.len := le_length_toMessage (n := 4) (by decide)
  simp only [Decodable, readable, h8, h4, Bool.and_eq_true, decide_eq_true_eq, and_assoc]

theorem counter_toMessage {a : CanFrame} (h : 8 ≤ a.len) :
    Struct.unpackUInt (slice a.toMessage.data 0 4) =
      LittleEndian.value (a.data.toList.take 4) := by
  have h8 : 8 ≤ a.len.toNat := UInt8.le_iff_toNat_le.1 h
  rw [Struct.unpackUInt, slice, CanFrame.toMessage, List.drop_zero, List.take_take,
    Nat.min_eq_left (by omega)]

end

/-! ## The simulation -/

/-- The sketch and the collector while they wait for the same thing. -/
inductive Follows (v : Vehicle) (self : StatusCollector) : Waiting → Prop
  | closed : v.haveFrameA = false → self = {} → Follows v self .closed
  | stale : v.haveFrameA = true → self = {} → Follows v self .stale
  | round {a : CanFrame} {c : Option CanFrame} :
      v.haveFrameA = true → self = ⟨some a.toMessage, none, c.map CanFrame.toMessage⟩ →
      v.pendingCounter.toNat = LittleEndian.value (a.data.toList.take 4) →
      Follows v self (.round a c)

variable {v : Vehicle} {self : StatusCollector} {w : Waiting} {input : VehicleInput} {f : CanFrame}

theorem sample_statusB (hactive : v.state = .activeSession) (hf : input.frame = some f)
    (hid : f.id = canIdBatteryStatusB) :
    v.sample C rootCaPublicKey input =
        (if v.haveFrameA then some (v.pendingCounter.toNat : Int) else none) ∧
      (loop C rootCaPublicKey v input).1.haveFrameA = false ∧
      (loop C rootCaPublicKey v input).1.state = .activeSession := by
  rw [sample, loop_statusB C rootCaPublicKey hactive hf hid]
  cases hopen : v.haveFrameA with
  | false => exact ⟨rfl, hopen, hactive⟩
  | true =>
    rcases handleStatusB_cases v f.data with ⟨-, h⟩ | ⟨-, -, h⟩ | ⟨-, -, h⟩
    · rw [h]
      exact ⟨rfl, rfl, hactive⟩
    · rw [h]
      exact ⟨rfl, rfl, hactive⟩
    · rw [h]
      exact ⟨rfl, rfl, hactive⟩

/-- At a B the collector emits what the sketch samples exactly if the two agree, and then both are
closed. -/
theorem Follows.feed_statusB (hw : Follows v self w) (hid : f.id = canIdBatteryStatusB) :
    ((if v.haveFrameA then some (v.pendingCounter.toNat : Int) else none) =
        (feed self f.toMessage).2.toOption.join.map BatteryStatus.counter ↔
      w.agrees f = true) ∧ (w.agrees f = true → (feed self f.toMessage).1 = {}) := by
  rw [feed_of_idB self (toMessage_idB hid)]
  cases hw with
  | closed hopen hself =>
    subst hself
    simp [hopen, Waiting.agrees, Except.toOption]
  | stale hopen hself =>
    subst hself
    simp [hopen, Waiting.agrees, Except.toOption]
  | @round a c hopen hself hcounter =>
    subst hself
    simp only [hopen, ↓reduceIte, Option.isSome_some, hcounter, Waiting.agrees]
    cases c with
    | none => simp [readable, Except.toOption]
    | some c =>
      by_cases hread : readable a f (some c) = true
      · obtain ⟨s, hs, hcount⟩ := emit_decodable (decodable_iff.2 hread)
        have ha : 8 ≤ a.len := by
          simp only [readable, Bool.and_eq_true, decide_eq_true_eq] at hread
          exact hread.1.1
        rw [counter_toMessage ha] at hcount
        rw [Option.map_some, hs]
        simp [hread, Except.toOption, hcount]
      · obtain ⟨e, he⟩ := emit_undecodable (mt decodable_iff.1 hread)
        rw [Option.map_some, he]
        simp [hread, Except.toOption]

/-- A C reaches the collector only, which keeps it if a round is open. -/
theorem Follows.feed_statusC (hw : Follows v self w) (hid : f.id = canIdBatteryStatusC) :
    (feed self f.toMessage).2.toOption.join = none ∧
      Follows v (feed self f.toMessage).1 (w.withC f) := by
  rw [feed_of_idC self (toMessage_idC hid)]
  cases hw with
  | closed hopen hself =>
    subst hself
    exact ⟨rfl, .closed hopen rfl⟩
  | stale hopen hself =>
    subst hself
    exact ⟨rfl, .stale hopen rfl⟩
  | round hopen hself hcounter =>
    subst hself
    exact ⟨rfl, .round hopen rfl hcounter⟩

/-- **The samples are the emissions exactly on the mirrored sequences.** -/
theorem samples_eq_emissions_iff {frames : List CanFrame} {inputs : List VehicleInput}
    (hactive : v.state = .activeSession) (hw : Follows v self w)
    (hin : inputs.map (·.frame) = frames.map some) (hstatus : ∀ f ∈ frames, IsStatus f) :
    samples C rootCaPublicKey v inputs = emissions self frames ↔ mirrored w frames = true := by
  induction frames generalizing v self w inputs with
  | nil =>
    obtain rfl : inputs = [] := List.map_eq_nil_iff.1 hin
    simp [samples, emissions, mirrored]
  | cons f frames ih =>
    rw [List.map_cons] at hin
    obtain ⟨input, inputs, rfl, hf, hrest⟩ := List.map_eq_cons_iff.1 hin
    have hlater : ∀ g ∈ frames, IsStatus g := fun g hg => hstatus g (List.mem_cons_of_mem _ hg)
    have hemit : emissions self (f :: frames) =
        (feed self f.toMessage).2.toOption.join.map BatteryStatus.counter ::
          emissions (feed self f.toMessage).1 frames := rfl
    rw [samples, hemit, List.cons.injEq, mirrored]
    rcases hstatus f List.mem_cons_self with hid | hid | hid
    · -- A opens a round on both sides
      have hloop := loop_statusA C rootCaPublicKey hactive hf hid
      have hfeed := feed_of_idA self (toMessage_idA hid)
      have hfollows : Follows (v.handleStatusA f.data) ⟨some f.toMessage, none, none⟩
          (.round f none) := .round rfl rfl (toNat_pendingCounter v f.data)
      rw [if_pos hid, sample, hloop, hfeed]
      exact (and_iff_right rfl).trans (ih hactive hfollows hrest hlater)
    · -- B ends the sketch's round, and the collector's if a C is there
      have hne : f.id ≠ canIdBatteryStatus := by rw [hid]; decide
      obtain ⟨hsample, hclosed, hactive'⟩ := sample_statusB C rootCaPublicKey hactive hf hid
      obtain ⟨hagree, hidle⟩ := hw.feed_statusB hid
      rw [if_neg hne, if_pos hid, hsample, hagree, Bool.and_eq_true]
      refine and_congr_right fun h => ?_
      rw [hidle h]
      exact ih hactive' (.closed hclosed rfl) hrest hlater
    · -- C reaches the collector only
      have hneA : f.id ≠ canIdBatteryStatus := by rw [hid]; decide
      have hneB : f.id ≠ canIdBatteryStatusB := by rw [hid]; decide
      have hloop := loop_statusC C rootCaPublicKey hf hid (v := v)
      obtain ⟨hnone, hfollows⟩ := hw.feed_statusC hid
      rw [if_neg hneA, if_neg hneB, sample, hloop, hnone]
      exact (and_iff_right rfl).trans (ih hactive hfollows hrest hlater)

/-- **The sketch samples where the collector emits, with the same counters, exactly on the mirrored
sequences** of status frames in an active session: for full frames, and without a flag left over,
those in which no B comes directly after an A. -/
theorem samples_iff_mirrored (v : Vehicle) (hactive : v.state = .activeSession)
    (frames : List CanFrame) (hstatus : ∀ f ∈ frames, IsStatus f) (inputs : List VehicleInput)
    (hin : inputs.map (·.frame) = frames.map some) :
    (samples C rootCaPublicKey v inputs = emissions {} frames ↔
      mirrored (if v.haveFrameA then .stale else .closed) frames = true) ∧
    (v.haveFrameA = false → (∀ f ∈ frames, 8 ≤ f.len) →
      (samples C rootCaPublicKey v inputs = emissions {} frames ↔
        frames.IsChain fun f g => ¬ (f.id = canIdBatteryStatus ∧ g.id = canIdBatteryStatusB))) := by
  cases hopen : v.haveFrameA with
  | false =>
    have hiff := samples_eq_emissions_iff C rootCaPublicKey hactive (.closed hopen rfl) hin hstatus
    exact ⟨hiff, fun _ hlen => hiff.trans (mirrored_iff_isChain hlen)⟩
  | true =>
    have hiff := samples_eq_emissions_iff C rootCaPublicKey hactive (.stale hopen rfl) hin hstatus
    exact ⟨hiff, fun h => by cases h⟩

/-- A full C frame of 30 °C. -/
def statusFrameC : CanFrame := .ofBytes canIdBatteryStatusC [0, 0, 240, 65, 0, 0, 0, 0]

/-- A round with its C before its B is mirrored. -/
theorem samples_swapped :
    samples .refusing (Vector.replicate 65 0) { state := .activeSession }
        ([Battery.statusFrameA 1, statusFrameC, Battery.statusFrameB].map received) =
      emissions {} [Battery.statusFrameA 1, statusFrameC, Battery.statusFrameB] :=
  (samples_iff_mirrored .refusing (Vector.replicate 65 0) { state := .activeSession } rfl
    [Battery.statusFrameA 1, statusFrameC, Battery.statusFrameB]
    (by simp [IsStatus, Battery.statusFrameA, Battery.statusFrameB, statusFrameC,
      CanFrame.ofBytes, Battery.canIdBatteryStatusB, canIdBatteryStatusB])
    ([Battery.statusFrameA 1, statusFrameC, Battery.statusFrameB].map received) rfl).1.2
    (by decide +kernel)

/-- A round in the order of its identifiers is sampled at B, without its temperature, and emitted
at C. -/
theorem samples_not_emissions :
    ¬ ∀ (C : Crypto) (rootCaPublicKey : Vector UInt8 65) (v : Vehicle) (frames : List CanFrame)
      (inputs : List VehicleInput), v.state = .activeSession → (∀ f ∈ frames, IsStatus f) →
      inputs.map (·.frame) = frames.map some →
      samples C rootCaPublicKey v inputs = emissions {} frames := by
  intro h
  have hround := h .refusing (Vector.replicate 65 0) { state := .activeSession }
    [Battery.statusFrameA 1, Battery.statusFrameB, statusFrameC]
    ([Battery.statusFrameA 1, Battery.statusFrameB, statusFrameC].map received) rfl
    (by simp [IsStatus, Battery.statusFrameA, Battery.statusFrameB, statusFrameC,
      CanFrame.ofBytes, Battery.canIdBatteryStatusB, canIdBatteryStatusB]) rfl
  exact absurd hround (by decide +kernel)

end Vehicle

end BattLock.Hardware
