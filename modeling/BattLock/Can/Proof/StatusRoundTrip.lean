import BattLock.Can.Proof.StatusCodec

/-!
# The status codec, there and back

On statuses whose measurements are binary32 numbers and whose integer fields fit their formats,
the single frame and the three split frames both decode to the status that was encoded; other
integers are refused by both. In the other direction, what was decoded is encoded to the bytes it
came from, up to the reserved ones. A NaN is left out: its payload is quieted on the way.
-/

namespace BattLock

open Python Python.Struct Ieee

/-- A number that binary32 has, and not a NaN. -/
def Single (x : PyFloat) : Prop := ∃ y : Binary32, y.val ≠ .nan ∧ x = widen y

namespace BatteryStatus

variable (s : BatteryStatus)

def Singles : Prop := Single s.voltage ∧ Single s.current ∧ Single s.temperature

/-- No measurement is a NaN. -/
def NotNaN : Prop := s.voltage.val ≠ .nan ∧ s.current.val ≠ .nan ∧ s.temperature.val ≠ .nan

/-- The integer fields fit the formats `I` and `B`. -/
structure InRange : Prop where
  counter : 0 ≤ s.counter ∧ s.counter < 2 ^ 32
  soc : 0 ≤ s.soc ∧ s.soc < 256
  soh : 0 ≤ s.soh ∧ s.soh < 256
  faultFlags : 0 ≤ s.faultFlags ∧ s.faultFlags < 256

end BatteryStatus

/-! ## Encoding -/

theorem Single.packFloat {x : PyFloat} (h : Single x) : ∃ b, packFloat x = .ok b := by
  obtain ⟨y, hy, rfl⟩ := h
  exact ⟨_, packFloat_widen hy⟩

theorem Single.round32 {x : PyFloat} (h : Single x) : round32 x = x := by
  obtain ⟨y, hy, rfl⟩ := h
  exact round32_widen hy

theorem BatteryStatus.Singles.rounded {s : BatteryStatus} (h : s.Singles) : s.rounded = s := by
  obtain ⟨hv, hi, ht⟩ := h
  rw [BatteryStatus.rounded, hv.round32, hi.round32, ht.round32]

theorem encode_ok {s : BatteryStatus} (hs : s.Singles) (hr : s.InRange) :
    ∃ m a b c, encodeStatus s = .ok m ∧ encodeStatusA s = .ok a ∧ encodeStatusB s = .ok b ∧
      encodeStatusC s = .ok c := by
  obtain ⟨v, hv⟩ := hs.1.packFloat
  obtain ⟨i, hi⟩ := hs.2.1.packFloat
  obtain ⟨t, ht⟩ := hs.2.2.packFloat
  have hcounter := packUInt_of_lt hr.counter.1 (n := 4) hr.counter.2
  have hsoc := packUInt_of_lt hr.soc.1 (n := 1) hr.soc.2
  have hsoh := packUInt_of_lt hr.soh.1 (n := 1) hr.soh.2
  have hfault := packUInt_of_lt hr.faultFlags.1 (n := 1) hr.faultFlags.2
  have hreserved : packUInt 1 0 = .ok [0] := rfl
  simp only [encodeStatus, encodeStatusA, encodeStatusB, encodeStatusC, hv, hi, ht, hcounter, hsoc,
    hsoh, hfault, hreserved, ok_bind, pure_eq_ok, Except.ok.injEq]
  exact ⟨_, _, _, _, rfl, rfl, rfl, rfl⟩

theorem inRange_of_encodeStatus {s : BatteryStatus} {m : CANMessage}
    (h : encodeStatus s = .ok m) : s.InRange := by
  simp only [encodeStatus, bind_eq_ok] at h
  obtain ⟨c, hc, soc, hsoc, soh, hsoh, f, hf, -⟩ := h
  exact ⟨fits_of_packUInt hc, fits_of_packUInt hsoc, fits_of_packUInt hsoh, fits_of_packUInt hf⟩

theorem inRange_of_encodeStatusA {s : BatteryStatus} {m : CANMessage}
    (h : encodeStatusA s = .ok m) : s.InRange := by
  simp only [encodeStatusA, bind_eq_ok] at h
  obtain ⟨c, hc, soc, hsoc, soh, hsoh, f, hf, -⟩ := h
  exact ⟨fits_of_packUInt hc, fits_of_packUInt hsoc, fits_of_packUInt hsoh, fits_of_packUInt hf⟩

theorem length_encodeStatusA {s : BatteryStatus} {m : CANMessage} (h : encodeStatusA s = .ok m) :
    m.data.length = 8 := by
  have hdecode := (encodeStatusA_ok h).2
  by_contra hlen
  rw [decodeStatusA, if_neg hlen] at hdecode
  cases hdecode

theorem length_encodeStatusB {s : BatteryStatus} {m : CANMessage} (h : encodeStatusB s = .ok m) :
    m.data.length = 8 := by
  have hdecode := (encodeStatusB_ok h).2
  by_contra hlen
  rw [decodeStatusB, if_neg hlen] at hdecode
  cases hdecode

/-- The four reserved bytes make up for the missing measurement. -/
theorem length_encodeStatusC {s : BatteryStatus} {m : CANMessage} (h : encodeStatusC s = .ok m) :
    m.data.length = 8 := by
  simp only [encodeStatusC, bind_eq_ok, pure_eq_ok, Except.ok.injEq] at h
  obtain ⟨t, ht, rfl⟩ := h
  simp [(packFloat_ok ht).1]

/-! ## Encoding what was decoded -/

/-- A single frame, byte by byte of its format. -/
theorem encodeStatus_decodeStatus {m : CANMessage} (h : m.data.length = 19) :
    ∃ s, decodeStatus m = .ok s ∧
      (s.NotNaN → encodeStatus s = .ok ⟨CanId.batteryStatus, m.data⟩) := by
  refine ⟨_, if_pos h, fun hnan => ?_⟩
  obtain ⟨hv, hi, ht⟩ := hnan
  have hfloat : ∀ {i j : Nat}, j - i = 4 → j ≤ 19 → (slice m.data i j).length = 4 := by
    intro i j hij hj
    rw [length_slice, h]
    omega
  have hbyte : ∀ {i j : Nat}, j - i = 1 → j ≤ 19 → (slice m.data i j).length = 1 := by
    intro i j hij hj
    rw [length_slice, h]
    omega
  have hnative : ∀ {b : Bytes}, b.length = 4 → (unpackFloat b).val ≠ .nan →
      packNativeFloat (unpackFloat b) = b := fun hb hnan =>
    packNativeFloat_of_packFloat (packFloat_unpackFloat hb hnan)
  simp only [encodeStatus, packUInt_unpackUInt (hfloat (i := 0) (j := 4) rfl (by decide)),
    hnative (hfloat rfl (by decide)) hv, hnative (hfloat rfl (by decide)) hi,
    hnative (hfloat rfl (by decide)) ht,
    packUInt_unpackUInt (hbyte (i := 16) (j := 17) rfl (by decide)),
    packUInt_unpackUInt (hbyte (i := 17) (j := 18) rfl (by decide)),
    packUInt_unpackUInt (hbyte (i := 18) (j := 19) rfl (by decide)), ok_bind, pure_eq_ok]
  have hjoin : slice m.data 0 4 ++ slice m.data 4 8 ++ slice m.data 8 12 ++ slice m.data 12 16 ++
      slice m.data 16 17 ++ slice m.data 17 18 ++ slice m.data 18 19 = m.data := by
    simp only [slice_append_slice, Nat.zero_le, Nat.reduceLeDiff]
    exact slice_all (Nat.le_of_eq h)
  rw [hjoin]

/-- The split frames, up to the byte reserved in A and the four reserved in C. -/
theorem encode_statusFromFrames {a b c : CANMessage} (ha : a.data.length = 8)
    (hb : b.data.length = 8) (hc : c.data.length = 8) :
    ∃ s, statusFromFrames a b c = .ok s ∧ (s.NotNaN →
      encodeStatusA s = .ok ⟨CanId.batteryStatusA, a.data.take 7 ++ [0]⟩ ∧
      encodeStatusB s = .ok ⟨CanId.batteryStatusB, b.data⟩ ∧
      encodeStatusC s = .ok ⟨CanId.batteryStatusC, c.data.take 4 ++ [0, 0, 0, 0]⟩) := by
  have hA : decodeStatusA a = .ok _ := if_pos ha
  have hB : decodeStatusB b = .ok _ := if_pos hb
  have hslice : (slice c.data 0 4).length = 4 := by
    rw [length_slice, hc]
    rfl
  have hC : decodeStatusC c = .ok _ := if_pos hslice
  refine ⟨_, by rw [statusFromFrames, hA, hB, hC]; rfl, fun hnan => ?_⟩
  obtain ⟨hv, hi, ht⟩ := hnan
  have hbyte : ∀ {i j n : Nat}, j - i = n → j ≤ 8 → (slice a.data i j).length = n := by
    intro i j n hij hj
    rw [length_slice, ha]
    omega
  refine ⟨?_, ?_, ?_⟩
  · have hjoin : slice a.data 0 4 ++ slice a.data 4 5 ++ slice a.data 5 6 ++ slice a.data 6 7 =
        a.data.take 7 := by
      simp only [slice_append_slice, Nat.zero_le, Nat.reduceLeDiff]
      rfl
    have hreserved : packUInt 1 0 = .ok [0] := rfl
    simp only [encodeStatusA, packUInt_unpackUInt (hbyte (i := 0) (j := 4) rfl (by decide)),
      packUInt_unpackUInt (hbyte (i := 4) (j := 5) rfl (by decide)),
      packUInt_unpackUInt (hbyte (i := 5) (j := 6) rfl (by decide)),
      packUInt_unpackUInt (hbyte (i := 6) (j := 7) rfl (by decide)), hreserved, ok_bind,
      pure_eq_ok, hjoin]
  · have hjoin : slice b.data 0 4 ++ slice b.data 4 8 = b.data := by
      rw [slice_append_slice _ (by decide) (by decide), slice_all (Nat.le_of_eq hb)]
    have hfloat : ∀ {i j : Nat}, j - i = 4 → j ≤ 8 → (slice b.data i j).length = 4 := by
      intro i j hij hj
      rw [length_slice, hb]
      omega
    simp only [encodeStatusB, packFloat_unpackFloat (hfloat rfl (by decide)) hv,
      packFloat_unpackFloat (hfloat rfl (by decide)) hi, ok_bind, pure_eq_ok, hjoin]
  · simp only [encodeStatusC, packFloat_unpackFloat hslice ht, ok_bind, pure_eq_ok]
    rfl

/-- **The two status formats, there and back**: both return every status that fits, both refuse
integers that do not, and both encode what they decoded to the bytes it came from. -/
theorem status_round_trip :
    (∀ s : BatteryStatus, s.Singles → s.InRange →
      ∃ m a b c, encodeStatus s = .ok m ∧ encodeStatusA s = .ok a ∧ encodeStatusB s = .ok b ∧
        encodeStatusC s = .ok c ∧ decodeStatus m = .ok s ∧ statusFromFrames a b c = .ok s ∧
        a.data.length = 8 ∧ b.data.length = 8 ∧ c.data.length = 8) ∧
    (∀ s : BatteryStatus, ¬ s.InRange →
      (∃ e, encodeStatus s = .error e) ∧ ∃ e, encodeStatusA s = .error e) ∧
    (∀ m : CANMessage, m.data.length = 19 → ∃ s, decodeStatus m = .ok s ∧
      (s.NotNaN → encodeStatus s = .ok ⟨CanId.batteryStatus, m.data⟩)) ∧
    (∀ a b c : CANMessage, a.data.length = 8 → b.data.length = 8 → c.data.length = 8 →
      ∃ s, statusFromFrames a b c = .ok s ∧ (s.NotNaN →
        encodeStatusA s = .ok ⟨CanId.batteryStatusA, a.data.take 7 ++ [0]⟩ ∧
        encodeStatusB s = .ok ⟨CanId.batteryStatusB, b.data⟩ ∧
        encodeStatusC s = .ok ⟨CanId.batteryStatusC, c.data.take 4 ++ [0, 0, 0, 0]⟩)) := by
  refine ⟨fun s hs hr => ?_, fun s hr => ⟨?_, ?_⟩, fun m h => encodeStatus_decodeStatus h,
    fun a b c ha hb hc => encode_statusFromFrames ha hb hc⟩
  · obtain ⟨m, a, b, c, hm, ha, hb, hc⟩ := encode_ok hs hr
    have hsingle := (encodeStatus_ok hm).2.2
    have hsplit := statusFromFrames_ok ha hb hc
    rw [hs.rounded] at hsingle
    rw [BatteryStatus.combine_self, hs.rounded] at hsplit
    exact ⟨m, a, b, c, hm, ha, hb, hc, hsingle, hsplit, length_encodeStatusA ha,
      length_encodeStatusB hb, length_encodeStatusC hc⟩
  · cases h : encodeStatus s with
    | ok m => exact absurd (inRange_of_encodeStatus h) hr
    | error e => exact ⟨e, rfl⟩
  · cases h : encodeStatusA s with
    | ok m => exact absurd (inRange_of_encodeStatusA h) hr
    | error e => exact ⟨e, rfl⟩

end BattLock
