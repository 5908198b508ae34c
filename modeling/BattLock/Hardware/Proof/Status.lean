import BattLock.Hardware.Battery
import BattLock.Hardware.Vehicle

/-!
# Status frames in an active session

What the vehicle's `loop()` does with each of the three status frames in an active session
(`loop_statusA`, `loop_statusB`, `loop_statusC`: it has no case for the third), and how it judges
an A and the B after it (`reports_pair`). `stream_reports`: the battery counts from 0 and the
vehicle takes a counter for fresh only above its own 0, so the first sample of a session is always
reported as a replay, and no other.
-/

namespace BattLock.Hardware

open CArray Python Ieee

/-- STATUS_C of the software; the sketches do not use it. -/
def canIdBatteryStatusC : UInt32 := 0x202

/-- What `handle_status_b` printed. -/
def Event.reports (events : List Event) : List Report :=
  events.filterMap fun
    | report r => some r
    | _ => none

theorem toList_data (data : Vector UInt8 8) :
    data.toList.take 4 = [data.get 0, data.get 1, data.get 2, data.get 3] ∧
      data.toList.drop 4 = [data.get 4, data.get 5, data.get 6, data.get 7] := by
  have hall : data.toList = [data.get 0, data.get 1, data.get 2, data.get 3, data.get 4,
      data.get 5, data.get 6, data.get 7] := by
    apply List.ext_getElem
    · rw [Vector.length_toList]
      rfl
    · intro i h1 h2
      rw [Vector.length_toList] at h1
      rw [Vector.getElem_toList]
      match i, h1 with
      | 0, _ | 1, _ | 2, _ | 3, _ | 4, _ | 5, _ | 6, _ | 7, _ => rfl
  rw [hall]
  exact ⟨rfl, rfl⟩

namespace Vehicle

variable (C : Crypto) (rootCaPublicKey : Vector UInt8 65)

/-- The reports of a run, in order. -/
def reports (v : Vehicle) (inputs : List VehicleInput) : List Report :=
  ((machine C rootCaPublicKey).log v inputs).flatMap fun e => Event.reports e.2

variable {v : Vehicle} {input : VehicleInput} {frame : CanFrame}

/-! ## One frame -/

theorem toNat_pendingCounter (v : Vehicle) (data : Vector UInt8 8) :
    (v.handleStatusA data).pendingCounter.toNat = LittleEndian.value (data.toList.take 4) := by
  rw [(toList_data data).1]
  exact LittleEndian.toNat_word32 _ _ _ _

theorem loop_statusA (hactive : v.state = .activeSession) (hf : input.frame = some frame)
    (hid : frame.id = canIdBatteryStatus) :
    loop C rootCaPublicKey v input = (v.handleStatusA frame.data, []) := by
  rw [loop, hf]
  exact if_pos ⟨hactive, hid⟩

theorem loop_statusB (hactive : v.state = .activeSession) (hf : input.frame = some frame)
    (hid : frame.id = canIdBatteryStatusB) :
    loop C rootCaPublicKey v input =
      if v.haveFrameA then
        ({ (v.handleStatusB frame.data).1 with haveFrameA := false },
          (v.handleStatusB frame.data).2)
      else (v, []) := by
  have hA : canIdBatteryStatusB ≠ canIdBatteryStatus := by decide
  rw [loop, hf]
  simp only [hactive, hid, hA, and_false, and_self, ↓reduceIte]

/-- There is no case for the third frame of a round. -/
theorem loop_statusC (hf : input.frame = some frame) (hid : frame.id = canIdBatteryStatusC) :
    loop C rootCaPublicKey v input = (v, []) := by
  have hA : canIdBatteryStatusC ≠ canIdBatteryStatus := by decide
  have hB : canIdBatteryStatusC ≠ canIdBatteryStatusB := by decide
  have h0 : canIdBatteryStatusC ≠ canIdAuthRequest := by decide
  have h1 : canIdBatteryStatusC ≠ canIdCertificate := by decide
  have h2 : canIdBatteryStatusC ≠ canIdSignature := by decide
  rw [loop, hf]
  simp only [hid, hA, hB, h0, h1, h2, dispatch, and_false, ↓reduceIte]

/-- The measurements of a B that `handle_status_b` takes for injected. -/
def injected (data : Vector UInt8 8) : Bool :=
  (floatOf (data.toList.take 4)).val.gt 100 || (floatOf (data.toList.drop 4)).val.gt 500

theorem handleStatusB_cases (v : Vehicle) (data : Vector UInt8 8) :
    (injected data = true ∧ v.handleStatusB data = (v, [.report .injection])) ∨
    (injected data = false ∧ v.pendingCounter ≤ v.lastCounter ∧
      v.handleStatusB data = (v, [.report .replay])) ∨
    (injected data = false ∧ v.lastCounter < v.pendingCounter ∧
      v.handleStatusB data =
        ({ v with lastCounter := v.pendingCounter }, [.report (.valid v.pendingCounter)])) := by
  have hcheck : v.handleStatusB data =
      if injected data then (v, [.report .injection])
      else if v.pendingCounter ≤ v.lastCounter then (v, [.report .replay])
      else ({ v with lastCounter := v.pendingCounter }, [.report (.valid v.pendingCounter)]) := by
    rw [injected, (toList_data data).1, (toList_data data).2]
    rfl
  rw [hcheck]
  cases hinj : injected data with
  | true => exact .inl ⟨rfl, if_pos rfl⟩
  | false =>
    rw [if_neg Bool.false_ne_true]
    rcases UInt32.lt_or_le v.lastCounter v.pendingCounter with hlt | hle
    · exact .inr (.inr ⟨rfl, hlt, if_neg (UInt32.not_le.2 hlt)⟩)
    · exact .inr (.inl ⟨rfl, hle, if_pos hle⟩)

/-! ## The battery's stream -/

end Vehicle

namespace Battery

/-- The battery under calls of `send_status`, with a controller that takes every frame. -/
def sender : Mealy Battery Unit (List Event) where
  step b _ := b.sendStatus fun _ => true

/-- The frames of `n` calls of `send_status`. -/
def statusFrames (b : Battery) (n : Nat) : List CanFrame :=
  Event.frames ((sender.log b (List.replicate n ())).flatMap Prod.snd)

theorem statusFrames_succ (b : Battery) (n : Nat) :
    b.statusFrames (n + 1) = statusFrameA b.counter :: statusFrameB ::
      ({ b with counter := b.counter + 1 } : Battery).statusFrames n := by
  rw [statusFrames, List.replicate_succ, Mealy.log_cons, List.flatMap_cons, Event.frames_append]
  rfl

theorem value_statusFrameA (c : UInt32) :
    LittleEndian.value ((statusFrameA c).data.toList.take 4) = c.toNat := by
  rw [← LittleEndian.value_bytes32 c, statusFrameA, CanFrame.ofBytes,
    toList_zeroExtend (by simp)]
  rfl

theorem injected_statusFrameB : Vehicle.injected statusFrameB.data = false := by decide +kernel

end Battery

namespace Vehicle

variable (C : Crypto) (rootCaPublicKey : Vector UInt8 65)

/-- What the vehicle reports of a sample, and the counter it keeps. -/
def judge (last counter : UInt32) (injected : Bool) : Report × UInt32 :=
  if injected then (.injection, last)
  else if counter ≤ last then (.replay, last)
  else (.valid counter, counter)

/-- An A and the B after it are one sample, judged by the counter of A and the measurements of
B. -/
theorem reports_pair {v : Vehicle} {a b : CanFrame} {inputA inputB : VehicleInput}
    (hactive : v.state = .activeSession) (hidA : a.id = canIdBatteryStatus)
    (hidB : b.id = canIdBatteryStatusB) (hA : inputA.frame = some a)
    (hB : inputB.frame = some b) :
    ∃ v' counter, v'.state = .activeSession ∧
      counter.toNat = LittleEndian.value (a.data.toList.take 4) ∧
      v'.lastCounter = (judge v.lastCounter counter (injected b.data)).2 ∧
      ∀ inputs, reports C rootCaPublicKey v (inputA :: inputB :: inputs) =
        (judge v.lastCounter counter (injected b.data)).1 ::
          reports C rootCaPublicKey v' inputs := by
  have hstepA : (machine C rootCaPublicKey).step v inputA = _ :=
    loop_statusA C rootCaPublicKey hactive hA hidA
  have hcounter := toNat_pendingCounter v a.data
  -- after the first frame a round is open and nothing else has changed
  generalize hv₁ : v.handleStatusA a.data = v₁ at hstepA hcounter
  have hactive₁ : v₁.state = .activeSession := by
    rw [← hv₁]
    exact hactive
  have hlast : v₁.lastCounter = v.lastCounter := by rw [← hv₁]; rfl
  have hopen : v₁.haveFrameA = true := by rw [← hv₁]; rfl
  have hstepB : (machine C rootCaPublicKey).step v₁ inputB = _ :=
    loop_statusB C rootCaPublicKey hactive₁ hB hidB
  rw [if_pos hopen] at hstepB
  refine ⟨((machine C rootCaPublicKey).step v₁ inputB).1, v₁.pendingCounter, ?_⟩
  simp only [reports, Mealy.log_cons, hstepA, hstepB, List.flatMap_cons, judge]
  rcases handleStatusB_cases v₁ b.data with ⟨hinj, h⟩ | ⟨hinj, hle, h⟩ | ⟨hinj, hlt, h⟩
  · rw [h, if_pos hinj]
    exact ⟨hactive₁, hcounter, hlast, fun _ => rfl⟩
  · rw [hlast] at hle
    rw [h, hinj, if_neg Bool.false_ne_true, if_pos hle]
    exact ⟨hactive₁, hcounter, hlast, fun _ => rfl⟩
  · rw [hlast] at hlt
    rw [h, hinj, if_neg Bool.false_ne_true, if_neg (UInt32.not_le.2 hlt)]
    exact ⟨hactive₁, hcounter, rfl, fun _ => rfl⟩

theorem reports_battery_pair {v : Vehicle} {c : UInt32} {inputA inputB : VehicleInput}
    (hactive : v.state = .activeSession) (hA : inputA.frame = some (Battery.statusFrameA c))
    (hB : inputB.frame = some Battery.statusFrameB) :
    ∃ v', v'.state = .activeSession ∧
      v'.lastCounter = (if c ≤ v.lastCounter then v.lastCounter else c) ∧
      ∀ inputs, reports C rootCaPublicKey v (inputA :: inputB :: inputs) =
        (if c ≤ v.lastCounter then .replay else .valid c) ::
          reports C rootCaPublicKey v' inputs := by
  obtain ⟨v', counter, hactive', hcounter, hlast, hreports⟩ :=
    reports_pair C rootCaPublicKey hactive rfl rfl hA hB
  obtain rfl : counter = c := by
    rw [← UInt32.toNat_inj, hcounter, Battery.value_statusFrameA]
  rw [Battery.injected_statusFrameB, judge, if_neg Bool.false_ne_true] at hlast hreports
  refine ⟨v', hactive', ?_⟩
  split at hlast
  · rename_i hle
    rw [if_pos hle, if_pos hle]
    rw [if_pos hle] at hreports
    exact ⟨hlast, hreports⟩
  · rename_i hle
    rw [if_neg hle, if_neg hle]
    rw [if_neg hle] at hreports
    exact ⟨hlast, hreports⟩

theorem reports_above {v : Vehicle} {b : Battery} {k n : Nat} {inputs : List VehicleInput}
    (hactive : v.state = .activeSession) (hk : k + n ≤ 2 ^ 32) (hb : b.counter = .ofNat k)
    (hlast : v.lastCounter.toNat < k)
    (hin : inputs.map (·.frame) = (b.statusFrames n).map some) :
    reports C rootCaPublicKey v inputs =
      (List.range' k n).map fun c => .valid (.ofNat c) := by
  induction n generalizing v b k inputs with
  | zero =>
    obtain rfl : inputs = [] := List.map_eq_nil_iff.1 hin
    rfl
  | succ n ih =>
    rw [Battery.statusFrames_succ, List.map_cons, List.map_cons] at hin
    obtain ⟨inputA, rest, rfl, hA, hrest⟩ := List.map_eq_cons_iff.1 hin
    obtain ⟨inputB, rest, rfl, hB, hrest⟩ := List.map_eq_cons_iff.1 hrest
    have hkc : b.counter.toNat = k := by
      have hsize : k < UInt32.size := Nat.lt_of_lt_of_le (by omega) hk
      rw [hb, UInt32.toNat_ofNat_of_lt' hsize]
    have hfresh : ¬ b.counter ≤ v.lastCounter := by
      rw [UInt32.le_iff_toNat_le]
      omega
    obtain ⟨v', hactive', hlast', hreports⟩ := reports_battery_pair C rootCaPublicKey hactive hA hB
    rw [if_neg hfresh] at hlast'
    have hnext : b.counter + 1 = .ofNat (k + 1) := by
      rw [hb, UInt32.ofNat_add]
      rfl
    have hlater := ih (b := { b with counter := b.counter + 1 }) (k := k + 1) hactive' (by omega)
      hnext (by rw [hlast']; omega) hrest
    rw [hreports, if_neg hfresh, List.range'_succ, List.map_cons, hb, hlater]

/-- **The stream of a fresh battery in a new session**: its first sample is reported as a replay,
the others are valid; so all of them are valid only if there are none. -/
theorem stream_reports (n : Nat) (hn : n < 2 ^ 32) (v : Vehicle)
    (hactive : v.state = .activeSession) (hlast : v.lastCounter = 0) (inputs : List VehicleInput)
    (hin : inputs.map (·.frame) = (({} : Battery).statusFrames n).map some) :
    reports C rootCaPublicKey v inputs =
      ((List.range n).map fun c => if c = 0 then .replay else .valid (.ofNat c)) ∧
    (reports C rootCaPublicKey v inputs = ((List.range n).map fun c => .valid (.ofNat c)) ↔
      n = 0) := by
  have hreports : reports C rootCaPublicKey v inputs =
      (List.range n).map fun c => if c = 0 then .replay else .valid (.ofNat c) := by
    cases n with
    | zero =>
      obtain rfl : inputs = [] := List.map_eq_nil_iff.1 hin
      rfl
    | succ n =>
      rw [Battery.statusFrames_succ, List.map_cons, List.map_cons] at hin
      obtain ⟨inputA, rest, rfl, hA, hrest⟩ := List.map_eq_cons_iff.1 hin
      obtain ⟨inputB, rest, rfl, hB, hrest⟩ := List.map_eq_cons_iff.1 hrest
      obtain ⟨v', hactive', hlast', hreports⟩ :=
        reports_battery_pair C rootCaPublicKey hactive hA hB
      -- the first counter is the one the vehicle starts from
      have hfirst : ({} : Battery).counter ≤ v.lastCounter := by
        rw [hlast]
        decide
      rw [if_pos hfirst, hlast] at hlast'
      have hlater : ∀ c ∈ List.range' 1 n,
          (if c = 0 then Report.replay else .valid (.ofNat c)) = .valid (.ofNat c) := by
        intro c hc
        have := List.mem_range'_1.1 hc
        exact if_neg (by omega)
      rw [hreports, if_pos hfirst, reports_above C rootCaPublicKey (k := 1)
        (b := { ({} : Battery) with counter := 0 + 1 }) hactive' (by omega) rfl
        (by rw [hlast']; decide) hrest, List.range_eq_range', List.range'_succ, List.map_cons,
        List.map_congr_left hlater]
      rfl
  refine ⟨hreports, ?_⟩
  rw [hreports]
  cases n with
  | zero => simp
  | succ n => simp [List.range_succ_eq_map]

/-- A call of `loop()` that receives a frame. -/
def received (frame : CanFrame) : VehicleInput where
  frame := some frame
  millis _ := 0
  accept _ := true
  beyond := Vector.replicate 2 0

theorem stream_reports_two :
    reports .refusing (Vector.replicate 65 0) { state := .activeSession }
        ((({} : Battery).statusFrames 2).map received) = [.replay, .valid 1] ∧
      ¬ reports .refusing (Vector.replicate 65 0) { state := .activeSession }
        ((({} : Battery).statusFrames 2).map received) = [.valid 0, .valid 1] := by
  obtain ⟨h, hvalid⟩ := stream_reports .refusing (Vector.replicate 65 0) 2 (by decide)
    { state := .activeSession } rfl rfl ((({} : Battery).statusFrames 2).map received)
    (by rw [List.map_map]; rfl)
  exact ⟨h, fun hall => absurd (hvalid.1 hall) (by decide)⟩

/-- The first sample of a session. -/
theorem stream_not_valid :
    ¬ ∀ (C : Crypto) (rootCaPublicKey : Vector UInt8 65) (n : Nat) (v : Vehicle)
      (inputs : List VehicleInput), n < 2 ^ 32 → v.state = .activeSession → v.lastCounter = 0 →
      inputs.map (·.frame) = (({} : Battery).statusFrames n).map some →
      reports C rootCaPublicKey v inputs = (List.range n).map fun c => .valid (.ofNat c) := by
  intro h
  have hone := h .refusing (Vector.replicate 65 0) 1 { state := .activeSession }
    [received (Battery.statusFrameA 0), received Battery.statusFrameB] (by decide) rfl rfl rfl
  have hA : (received (Battery.statusFrameA 0)).frame = some (Battery.statusFrameA 0) := rfl
  have hB : (received Battery.statusFrameB).frame = some Battery.statusFrameB := rfl
  obtain ⟨v', -, -, hpair⟩ := reports_battery_pair .refusing (Vector.replicate 65 0)
    (v := { state := .activeSession }) rfl hA hB
  rw [hpair, if_pos (by decide)] at hone
  cases hone

end Vehicle

end BattLock.Hardware
