import BattLock.Can.Status

/-!
# What the status codec keeps

Decoding what was encoded gives the status back with its measurements rounded to binary32
(`encodeStatus_ok`); frames A, B and C of three statuses decode to the status with the parts each
of them carries (`statusFromFrames_ok`). A 19-byte status frame always decodes
(`decodeStatus_ok`).
-/

namespace BattLock

open Python Python.Struct

/-- The status with its measurements rounded to binary32. -/
def BatteryStatus.rounded (s : BatteryStatus) : BatteryStatus :=
  { s with
    voltage := Ieee.round32 s.voltage
    current := Ieee.round32 s.current
    temperature := Ieee.round32 s.temperature }

/-- The part of `sa` that frame A carries, with the measurements of `sb` and `sc` that B and C
carry, rounded. -/
def BatteryStatus.combine (sa sb sc : BatteryStatus) : BatteryStatus :=
  { counter := sa.counter
    voltage := Ieee.round32 sb.voltage
    current := Ieee.round32 sb.current
    temperature := Ieee.round32 sc.temperature
    soc := sa.soc
    soh := sa.soh
    faultFlags := sa.faultFlags }

theorem BatteryStatus.combine_self (s : BatteryStatus) : s.combine s s = s.rounded := rfl

/-! ## The single frame -/

theorem decodeStatus_ok {m : CANMessage} (h : m.data.length = 19) :
    ∃ s, decodeStatus m = .ok s ∧ s.counter = unpackUInt (slice m.data 0 4) := by
  unfold decodeStatus
  exact ⟨_, if_pos h, rfl⟩

theorem length_of_decodeStatus {m : CANMessage} {s : BatteryStatus} (h : decodeStatus m = .ok s) :
    m.data.length = 19 := by
  by_contra hlen
  simp [decodeStatus, hlen] at h

theorem encodeStatus_ok {s : BatteryStatus} {m : CANMessage} (h : encodeStatus s = .ok m) :
    m.arbitrationId = CanId.batteryStatus ∧ m.data.length = 19 ∧
      decodeStatus m = .ok s.rounded := by
  simp only [encodeStatus, bind_eq_ok, pure_eq_ok, Except.ok.injEq] at h
  obtain ⟨c, hc, soc, hsoc, soh, hsoh, f, hf, rfl⟩ := h
  obtain ⟨lc, hc⟩ := packUInt_ok hc
  obtain ⟨lv, hv⟩ := packNativeFloat_spec s.voltage
  obtain ⟨li, hi⟩ := packNativeFloat_spec s.current
  obtain ⟨lt, ht⟩ := packNativeFloat_spec s.temperature
  generalize packNativeFloat s.voltage = v at lv hv ⊢
  generalize packNativeFloat s.current = i at li hi ⊢
  generalize packNativeFloat s.temperature = t at lt ht ⊢
  obtain ⟨lsoc, hsoc⟩ := packUInt_ok hsoc
  obtain ⟨lsoh, hsoh⟩ := packUInt_ok hsoh
  obtain ⟨lf, hf⟩ := packUInt_ok hf
  have hlen : (c ++ v ++ i ++ t ++ soc ++ soh ++ f).length = 19 := by
    simp [lc, lv, li, lt, lsoc, lsoh, lf]
  refine ⟨rfl, hlen, ?_⟩
  simp only [decodeStatus, hlen, ↓reduceIte]
  simp (disch := simp [lc, lv, li, lt, lsoc, lsoh, lf]) only [slice_append_left,
    slice_append_right, slice_all]
  simp [slice_all, lc, lv, li, lt, lsoc, lsoh, lf, hc, hv, hi, ht, hsoc, hsoh, hf,
    BatteryStatus.rounded]

/-! ## The split frames -/

theorem encodeStatusA_ok {s : BatteryStatus} {m : CANMessage} (h : encodeStatusA s = .ok m) :
    m.arbitrationId = CanId.batteryStatusA ∧
      decodeStatusA m = .ok ⟨s.counter, s.soc, s.soh, s.faultFlags⟩ := by
  simp only [encodeStatusA, bind_eq_ok, pure_eq_ok, Except.ok.injEq] at h
  obtain ⟨c, hc, soc, hsoc, soh, hsoh, f, hf, r, hr, rfl⟩ := h
  obtain ⟨lc, hc⟩ := packUInt_ok hc
  obtain ⟨lsoc, hsoc⟩ := packUInt_ok hsoc
  obtain ⟨lsoh, hsoh⟩ := packUInt_ok hsoh
  obtain ⟨lf, hf⟩ := packUInt_ok hf
  obtain ⟨lr, -⟩ := packUInt_ok hr
  have hlen : (c ++ soc ++ soh ++ f ++ r).length = 8 := by simp [lc, lsoc, lsoh, lf, lr]
  refine ⟨rfl, ?_⟩
  simp only [decodeStatusA, hlen, ↓reduceIte]
  simp (disch := simp [lc, lsoc, lsoh, lf]) only [slice_append_left, slice_append_right]
  simp [slice_all, lc, lsoc, lsoh, lf, hc, hsoc, hsoh, hf]

theorem encodeStatusB_ok {s : BatteryStatus} {m : CANMessage} (h : encodeStatusB s = .ok m) :
    m.arbitrationId = CanId.batteryStatusB ∧
      decodeStatusB m = .ok ⟨Ieee.round32 s.voltage, Ieee.round32 s.current⟩ := by
  simp only [encodeStatusB, bind_eq_ok, pure_eq_ok, Except.ok.injEq] at h
  obtain ⟨v, hv, i, hi, rfl⟩ := h
  obtain ⟨lv, hv⟩ := packFloat_ok hv
  obtain ⟨li, hi⟩ := packFloat_ok hi
  have hlen : (v ++ i).length = 8 := by simp [lv, li]
  refine ⟨rfl, ?_⟩
  simp only [decodeStatusB, hlen, ↓reduceIte]
  simp (disch := simp [lv]) only [slice_append_left, slice_append_right]
  simp [slice_all, lv, li, hv, hi]

theorem encodeStatusC_ok {s : BatteryStatus} {m : CANMessage} (h : encodeStatusC s = .ok m) :
    m.arbitrationId = CanId.batteryStatusC ∧
      decodeStatusC m = .ok ⟨Ieee.round32 s.temperature⟩ := by
  simp only [encodeStatusC, bind_eq_ok, pure_eq_ok, Except.ok.injEq] at h
  obtain ⟨t, ht, rfl⟩ := h
  obtain ⟨lt, ht⟩ := packFloat_ok ht
  have hslice : slice (t ++ [0, 0, 0, 0]) 0 4 = t := by
    rw [slice_append_left _ _ lt.ge, slice_all lt.le]
  exact ⟨rfl, by simp only [decodeStatusC, hslice, lt, ↓reduceIte, ht]⟩

/-- **Frames of three statuses decode to their combination.** -/
theorem statusFromFrames_ok {sa sb sc : BatteryStatus} {a b c : CANMessage}
    (ha : encodeStatusA sa = .ok a) (hb : encodeStatusB sb = .ok b)
    (hc : encodeStatusC sc = .ok c) : statusFromFrames a b c = .ok (sa.combine sb sc) := by
  simp only [statusFromFrames, (encodeStatusA_ok ha).2, (encodeStatusB_ok hb).2,
    (encodeStatusC_ok hc).2, ok_bind, pure_eq_ok, BatteryStatus.combine]

end BattLock
