import BattLock.Can.Proof.Fragment
import BattLock.Hardware.Proof.Reassembly
import Mathlib.Data.List.TakeWhile

/-!
# What `send_payload` sends, and what becomes of it

`sendPayload_eq`: the frames of a payload of at most `TRANSPORT_MAX` bytes are `payloadFrames`,
as many of them as the controller takes before it refuses one. The count and the payload bytes of
each frame are those of the software's frames (`Transport.frameCount`); the first byte also
carries the last-fragment flag and the last frame is padded with zeros. The loop runs on 16-bit
words, which the bound on the payload keeps from wrapping.

`sendPayload_delivered`: fed in order to any reassembly, the frames give the payload back.
-/

namespace BattLock.Hardware

open CArray Python Transport

/-! ## The frames -/

/-- The first byte of frame `i` of a payload of `n` bytes. -/
def frameHead (n i : Nat) : UInt8 :=
  (if i + 1 = frameCount n then fragLastFlag else 0) ||| .ofNat i

/-- `k` bytes of a payload from an offset on, padded with zeros. -/
def padded (p : Bytes) (off k : Nat) : Bytes := (List.range k).map fun j => p.getD (off + j) 0

def payloadFrame (id : UInt32) (p : Bytes) (i : Nat) : CanFrame :=
  if i = 0 then headFrame id (frameHead p.length 0) p (.ofNat p.length)
  else dataFrame id (frameHead p.length i) p (.ofNat p.length) (7 * i - 2)

/-- All frames of a payload. -/
def payloadFrames (id : UInt32) (p : Bytes) : List CanFrame :=
  (List.range (frameCount p.length)).map (payloadFrame id p)

section
variable {id : UInt32} {p : Bytes} {i : Nat} {accept : CanFrame → Bool}

theorem frameCount_le_74 (hp : p.length ≤ transportMax) : frameCount p.length ≤ 74 := by
  simp only [transportMax] at hp
  unfold frameCount
  omega

/-- The words of the loop do not wrap. -/
theorem toNat_ofNat {n : Nat} (h : n < 2 ^ 16) : (UInt16.ofNat n).toNat = n :=
  UInt16.toNat_ofNat_of_lt' h

theorem toNat_length (hp : p.length ≤ transportMax) :
    (UInt16.ofNat p.length).toNat = p.length := by
  simp only [transportMax] at hp
  exact toNat_ofNat (by omega)

theorem payloadByte_eq (hp : p.length ≤ transportMax) (k : Nat) :
    payloadByte p (.ofNat p.length) k = p.getD k 0 := by
  unfold payloadByte
  rw [toNat_length hp]
  split
  · rfl
  · rw [List.getD_eq_default _ _ (by omega)]

theorem toNat_fragmentCount (hp : p.length ≤ transportMax) :
    (battlockFragmentCount (.ofNat p.length)).toNat = frameCount p.length := by
  have h5 : fragFirstData.toUInt16.toNat = 5 := rfl
  have h5' : fragFirstData.toNat = 5 := rfl
  have h7 : fragDataBytes.toNat = 7 := rfl
  have hmax : transportMax = 512 := rfl
  have hlen := toNat_length hp
  unfold battlockFragmentCount frameCount
  split <;> rename_i hle <;> rw [UInt16.le_iff_toNat_le] at hle
  · rw [show (1 : UInt16).toNat = 1 from rfl]
    omega
  · rw [h5', h7, hlen, toNat_ofNat (by omega)]
    omega

/-! ## `send_payload` -/

/-- The head of a later frame, computed on 16-bit words. -/
theorem head_eq {n i : Nat} :
    ((if i + 1 = frameCount n then fragLastFlag.toUInt16 else 0) ||| UInt16.ofNat i).toUInt8 =
      frameHead n i := by
  have hmod : (UInt16.ofNat i).toUInt8 = UInt8.ofNat i := by
    apply UInt8.toNat_inj.1
    rw [UInt16.toNat_toUInt8, UInt8.toNat_ofNat', UInt16.toNat_ofNat']
    omega
  rw [UInt16.toUInt8_or, hmod, frameHead]
  split
  · rfl
  · rfl

theorem toNat_lastIndex (hp : p.length ≤ transportMax) :
    (battlockFragmentCount (.ofNat p.length) - 1).toNat = frameCount p.length - 1 := by
  have hcount := toNat_fragmentCount hp
  have h1 : (1 : UInt16).toNat = 1 := rfl
  have hpred := frameCount_pred p.length
  rw [UInt16.toNat_sub_of_le _ _ (by rw [UInt16.le_iff_toNat_le]; omega), hcount, h1]

theorem sendRest_eq (accept : CanFrame → Bool) (id : UInt32) (hp : p.length ≤ transportMax)
    {n : Nat} (hi : 1 ≤ i) (hn : i + n = frameCount p.length) :
    sendRest accept id p (.ofNat p.length) (battlockFragmentCount (.ofNat p.length)) n (.ofNat i)
      (.ofNat (7 * i - 2)) =
      (((List.range' i n).map (payloadFrame id p)).takeWhile accept,
        ((List.range' i n).map (payloadFrame id p)).all accept) := by
  have h74 := frameCount_le_74 hp
  induction n generalizing i with
  | zero => rfl
  | succ n ih =>
    have hlast : UInt16.ofNat i = battlockFragmentCount (.ofNat p.length) - 1 ↔
        i + 1 = frameCount p.length := by
      rw [← UInt16.toNat_inj, toNat_lastIndex hp, toNat_ofNat (by omega)]
      omega
    have hoff : (UInt16.ofNat (7 * i - 2)).toNat = 7 * i - 2 := toNat_ofNat (by omega)
    have hframe : dataFrame id (frameHead p.length i) p (.ofNat p.length) (7 * i - 2) =
        payloadFrame id p i := by
      rw [payloadFrame, if_neg (by omega)]
    have hnext : UInt16.ofNat (7 * i - 2) + fragDataBytes.toUInt16 =
        UInt16.ofNat (7 * (i + 1) - 2) := by
      rw [show fragDataBytes.toUInt16 = UInt16.ofNat 7 from rfl, ← UInt16.ofNat_add]
      congr 1
      omega
    have hrest := ih (i := i + 1) (by omega) (by omega)
    rw [sendRest]
    simp only [hlast, head_eq, hoff, hframe, hnext,
      show UInt16.ofNat i + 1 = UInt16.ofNat (i + 1) from (UInt16.ofNat_add i 1).symm, hrest,
      List.range'_succ, List.map_cons, List.takeWhile_cons, List.all_cons]
    cases accept (payloadFrame id p i) with
    | true => rfl
    | false => rfl

theorem payloadFrames_eq_cons (id : UInt32) (p : Bytes) : payloadFrames id p =
    payloadFrame id p 0 :: (List.range' 1 (frameCount p.length - 1)).map (payloadFrame id p) := by
  rw [payloadFrames, range_frameCount, List.map_cons]

/-- **The frames of a payload**, up to the first one the controller refuses. -/
theorem sendPayload_eq (accept : CanFrame → Bool) (id : UInt32) (hp : p.length ≤ transportMax) :
    sendPayload accept id p (.ofNat p.length) =
      ((payloadFrames id p).takeWhile accept, (payloadFrames id p).all accept) := by
  have hcount := toNat_fragmentCount hp
  have h0 : payloadFrame id p 0 = headFrame id (frameHead p.length 0) p (.ofNat p.length) := by
    rw [payloadFrame, if_pos rfl]
  have hpred := frameCount_pred p.length
  have hframes := payloadFrames_eq_cons id p
  unfold sendPayload
  dsimp only
  split
  · rename_i hone
    have hone' : frameCount p.length = 1 := by rw [← hcount, hone]; rfl
    have hhead : frameHead p.length 0 = fragLastFlag := by
      rw [frameHead, if_pos hone'.symm]
      rfl
    rw [hframes, h0, hhead, hone']
    cases h : accept (headFrame id fragLastFlag p (.ofNat p.length)) with
    | true => simp [h]
    | false => simp [h]
  · rename_i hone
    have hhead : frameHead p.length 0 = 0 := by
      rw [frameHead, if_neg]
      · rfl
      · intro h
        exact hone (UInt16.toNat_inj.1 (by rw [hcount, ← h]; rfl))
    have hrest := sendRest_eq (i := 1) accept id hp (Nat.le_refl 1)
      (show 1 + (frameCount p.length - 1) = frameCount p.length by omega)
    rw [hframes, h0, hhead, toNat_lastIndex hp, show (1 : UInt16) = .ofNat 1 from rfl,
      show fragFirstData.toUInt16 = .ofNat (7 * 1 - 2) from rfl, hrest]
    cases h : accept (headFrame id 0 p (.ofNat p.length)) with
    | true => simp [h]
    | false => simp [h]

theorem sendPayload_all (id : UInt32) (hp : p.length ≤ transportMax) :
    sendPayload (fun _ => true) id p (.ofNat p.length) = (payloadFrames id p, true) := by
  rw [sendPayload_eq _ id hp, List.takeWhile_eq_self_iff.2 (fun _ _ => rfl),
    List.all_eq_true.2 (fun _ _ => rfl)]

/-! ## What is in a frame -/

theorem length_padded (p : Bytes) (off k : Nat) : (padded p off k).length = k := by
  simp [padded]

theorem take_padded (p : Bytes) (off k : Nat) :
    (padded p off k).take (p.length - off) = (p.drop off).take k := by
  apply List.ext_getElem
  · simp only [List.length_take, List.length_drop, length_padded]
    omega
  · intro j h1 h2
    have hj : off + j < p.length := by
      simp only [List.length_take, length_padded] at h1
      omega
    simp only [padded, List.getElem_take, List.getElem_map, List.getElem_range, List.getElem_drop]
    exact List.getD_eq_getElem _ _ hj

theorem declared_payloadFrame (id : UInt32) (hp : p.length ≤ transportMax) :
    (payloadFrame id p 0).declared = p.length := by
  have hmax : transportMax = 512 := rfl
  have hlen := toNat_length hp
  have hbytes : (payloadFrame id p 0).declared = LittleEndian.value
      [(UInt16.ofNat p.length &&& 0xFF).toUInt8,
        ((UInt16.ofNat p.length >>> 8) &&& 0xFF).toUInt8] := rfl
  simp only [hbytes, LittleEndian.value, UInt16.toNat_toUInt8, UInt16.toNat_and,
    UInt16.toNat_shiftRight, hlen]
  rw [show (0xFF : UInt16).toNat = 2 ^ 8 - 1 from rfl, show (8 : UInt16).toNat % 16 = 8 from rfl,
    Nat.and_two_pow_sub_one_eq_mod, Nat.and_two_pow_sub_one_eq_mod, Nat.shiftRight_eq_div_pow]
  omega

theorem drop_payloadFrame_zero (hp : p.length ≤ transportMax) :
    (payloadFrame id p 0).data.toList.drop 3 = padded p 0 5 := by
  simp only [payloadFrame, ↓reduceIte, headFrame, payloadByte_eq hp]
  simp [padded, List.range_succ]

theorem drop_payloadFrame (hp : p.length ≤ transportMax) (hi : i ≠ 0) :
    (payloadFrame id p i).data.toList.drop 1 = padded p (7 * i - 2) 7 := by
  simp only [payloadFrame, if_neg hi, dataFrame, payloadByte_eq hp]
  simp [padded, List.range_succ]

theorem id_payloadFrame : (payloadFrame id p i).id = id := by
  unfold payloadFrame
  split
  · rfl
  · rfl

theorem len_payloadFrame : (payloadFrame id p i).len = canDataLen := by
  unfold payloadFrame
  split
  · rfl
  · rfl

theorem carried_payloadFrame (hp : p.length ≤ transportMax) (hi : i ≠ 0) :
    (payloadFrame id p i).carried = padded p (7 * i - 2) 7 := by
  rw [CanFrame.carried, drop_payloadFrame hp hi, len_payloadFrame]
  exact List.take_of_length_le (by rw [length_padded]; decide)

theorem data_zero_payloadFrame (id : UInt32) (p : Bytes) (i : Nat) :
    (payloadFrame id p i).data.get 0 = frameHead p.length i := by
  unfold payloadFrame
  split
  · rename_i h
    subst h
    rfl
  · rfl

/-- A sequence number and the flag do not touch. -/
theorem head_bits : ∀ i < 128,
    ((UInt8.ofNat i &&& ~~~fragLastFlag = 0 ↔ i = 0) ∧
      ((fragLastFlag ||| UInt8.ofNat i) &&& ~~~fragLastFlag = 0 ↔ i = 0)) ∧
    (UInt8.ofNat i &&& fragLastFlag = 0 ∧
      (fragLastFlag ||| UInt8.ofNat i) &&& fragLastFlag ≠ 0) := by
  decide +kernel

theorem isHead_payloadFrame (hi : i < 128) : (payloadFrame id p i).IsHead ↔ i = 0 := by
  obtain ⟨⟨hplain, hflag⟩, -⟩ := head_bits i hi
  rw [CanFrame.IsHead, data_zero_payloadFrame, frameHead]
  split
  · exact hflag
  · rw [UInt8.zero_or]
    exact hplain

theorem isLast_payloadFrame (hi : i < 128) :
    (payloadFrame id p i).IsLast ↔ i + 1 = frameCount p.length := by
  obtain ⟨-, hplain, hflag⟩ := head_bits i hi
  rw [CanFrame.IsLast, data_zero_payloadFrame, frameHead]
  split
  · rename_i h
    exact iff_of_true hflag h
  · rename_i h
    rw [UInt8.zero_or]
    exact iff_of_false (fun hne => hne hplain) h

/-! ## The payload comes back -/

/-- The first frame's data and the chunks after it, up to the total length, are the payload if
and only if the chunks hold what is behind its first five bytes. -/
theorem take_message_iff {ds : List Bytes} (hds : ∀ d ∈ ds, d.length = 7) :
    (padded p 0 5 ++ ds.flatten).take p.length = p ↔ Chunks.Blocks 7 (p.drop 5) ds := by
  have hfive := take_padded p 0 5
  rw [List.drop_zero, Nat.sub_zero] at hfive
  rw [← Chunks.take_flatten_iff hds, List.take_append, hfive, length_padded, List.length_drop]
  constructor
  · intro h
    have hdrop := congrArg (List.drop (p.take 5).length) h
    rw [List.drop_left, List.length_take] at hdrop
    rcases Nat.le_total 5 p.length with hle | hle
    · rwa [Nat.min_eq_left hle] at hdrop
    · rw [Nat.sub_eq_zero_of_le hle, List.take_zero, List.drop_eq_nil_of_le hle]
  · intro h
    rw [h, List.take_append_drop]

theorem blocks_payloadFrames (hp : p.length ≤ transportMax) :
    Chunks.Blocks 7 (p.drop 5)
      (((List.range' 1 (frameCount p.length - 1)).map (payloadFrame id p)).map
        CanFrame.carried) := by
  intro i hi
  rw [List.length_drop] at hi ⊢
  have hcount : i < frameCount p.length - 1 := by unfold frameCount; omega
  refine ⟨(payloadFrame id p (1 + i)).carried, by simp [hcount], ?_⟩
  have hoff : 7 * (1 + i) - 2 = 5 + i * 7 := by omega
  rw [carried_payloadFrame hp (by omega), hoff, List.drop_drop, ← take_padded, Nat.sub_sub]

/-- The frames deliver the payload to a reassembly: `feed` returns true at the last one and
leaves the payload in the buffer. -/
structure Delivered (r : BattLockReassembly) (frames : List CanFrame) (p : Bytes) : Prop where
  answers : r.answers frames = List.replicate (frames.length - 1) false ++ [true]
  len : (r.feedAll frames).len.toNat = p.length
  total : (r.feedAll frames).total = (r.feedAll frames).len
  buffer : (r.feedAll frames).buffer.toList.take p.length = p

theorem answers_payloadFrames (hp : p.length ≤ transportMax) (r : BattLockReassembly) :
    r.answers (payloadFrames id p) = List.replicate (frameCount p.length - 1) false ++ [true] := by
  have h74 := frameCount_le_74 hp
  have hpred := frameCount_pred p.length
  rw [BattLockReassembly.answers_eq, payloadFrames, List.map_map, ← frameCount_pred,
    List.range_succ, List.map_append, List.map_singleton]
  congr 1
  · rw [List.eq_replicate_iff]
    refine ⟨by simp, fun b hb => ?_⟩
    obtain ⟨i, hi, rfl⟩ := List.mem_map.1 hb
    have hlt := List.mem_range.1 hi
    simp only [Function.comp_apply, decide_eq_false_iff_not]
    rw [isLast_payloadFrame (by omega)]
    omega
  · simp only [Function.comp_apply, List.cons.injEq, decide_eq_true_eq, and_true]
    rw [isLast_payloadFrame (by omega)]
    omega

theorem holds_payloadFrames (id : UInt32) (hp : p.length ≤ transportMax)
    (r : BattLockReassembly) :
    (r.feedAll (payloadFrames id p)).Holds p.length p := by
  have h74 := frameCount_le_74 hp
  have hdeclared := declared_payloadFrame id hp
  have hlater : ∀ f ∈ (List.range' 1 (frameCount p.length - 1)).map (payloadFrame id p),
      ¬ f.IsHead := by
    intro f hf
    obtain ⟨i, hi, rfl⟩ := List.mem_map.1 hf
    obtain ⟨j, hj, rfl⟩ := List.mem_range'.1 hi
    rw [isHead_payloadFrame (by omega)]
    omega
  have h := BattLockReassembly.holds_message (f := payloadFrame id p 0) r
    ((isHead_payloadFrame (by omega)).2 rfl) (by rw [hdeclared]; exact hp) hlater
  have hds : ∀ d ∈ ((List.range' 1 (frameCount p.length - 1)).map (payloadFrame id p)).map
      CanFrame.carried, d.length = 7 := by
    intro d hd
    obtain ⟨f, hf, rfl⟩ := List.mem_map.1 hd
    obtain ⟨i, -, rfl⟩ := List.mem_map.1 hf
    rw [CanFrame.length_carried, len_payloadFrame]
    rfl
  rw [← payloadFrames_eq_cons, hdeclared, drop_payloadFrame_zero hp,
    (take_message_iff hds).2 (blocks_payloadFrames hp)] at h
  exact h

/-- **The firmware's own round trip**: what `send_payload` sends, `battlock_reassembly_feed` puts
together, whatever the reassembly held before. -/
theorem sendPayload_delivered (id : UInt32) (p : Bytes) (hp : p.length ≤ 512)
    (r : BattLockReassembly) :
    Delivered r (sendPayload (fun _ => true) id p (.ofNat p.length)).1 p ∧
      (sendPayload (fun _ => true) id p (.ofNat p.length)).2 = true ∧
      (sendPayload (fun _ => true) id p (.ofNat p.length)).1.length =
        (battlockFragmentCount (.ofNat p.length)).toNat := by
  have hlength : (payloadFrames id p).length = frameCount p.length := by
    rw [payloadFrames, List.length_map, List.length_range]
  have h := holds_payloadFrames id hp r
  rw [sendPayload_all id hp]
  refine ⟨⟨?_, h.len_eq, ?_, h.buffer_eq⟩, rfl, ?_⟩
  · rw [answers_payloadFrames hp, hlength]
  · exact UInt16.toNat_inj.1 (h.total_eq.trans h.len_eq.symm)
  · rw [hlength, toNat_fragmentCount hp]

/-- A nonce. -/
theorem sendPayload_delivered_nonce :
    ((BattLockReassembly.feedAll {} (sendPayload (fun _ => true) canIdNonce
      (List.replicate 32 7) 32).1).buffer.toList.take 32) = List.replicate 32 7 :=
  (sendPayload_delivered canIdNonce (List.replicate 32 7) (by decide) {}).1.buffer

end

end BattLock.Hardware
