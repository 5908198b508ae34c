import BattLock.Can.Proof.Reassemble
import BattLock.Hardware.Proof.SendPayload

/-!
# The firmware and the software on one bus

The two halves of the wire format cut a payload into the same number of frames with the same
payload bytes, but end a message differently: `send_payload` sets a flag in the first byte of the
last frame, which `reassemble` reads as a sequence number (`not_softwareReads`), and
`battlock_reassembly_feed` waits for that flag, which `fragment` never sets
(`not_firmwareReads`). Only the end is wrong: after the last frame of `fragment` the firmware's
buffer does hold the payload (`fragment_fed`).
-/

namespace BattLock.Hardware

open CArray Python Transport

/-- A frame of the firmware as the software receives it. -/
def CanFrame.toMessage (f : CanFrame) : CANMessage :=
  ⟨f.id.toNat, f.data.toList.take f.len.toNat⟩

/-- A frame of the software as the firmware receives it. -/
def CanFrame.ofMessage (m : CANMessage) : CanFrame := .ofBytes (.ofNat m.arbitrationId.toNat) m.data

section
variable {p : Bytes} {i : Nat}

/-! ## From the firmware to the software -/

/-- `reassemble` gives the payload `send_payload` was called with. -/
def SoftwareReads (id : UInt32) (p : Bytes) : Prop :=
  reassemble ((sendPayload (fun _ => true) id p (.ofNat p.length)).1.map CanFrame.toMessage) =
    .ok p

theorem seqByte_payloadFrame (id : UInt32) (p : Bytes) (i : Nat) :
    seqByte (payloadFrame id p i).toMessage = frameHead p.length i := by
  have h0 := data_zero_payloadFrame id p i
  have hlen : (payloadFrame id p i).len.toNat = 7 + 1 := by rw [len_payloadFrame]; rfl
  obtain ⟨b, bs, hdata⟩ : ∃ b bs, (payloadFrame id p i).data.toList = b :: bs :=
    List.exists_cons_of_length_pos (by rw [Vector.length_toList]; decide)
  have hb : b = frameHead p.length i := by
    rw [← h0]
    show b = (payloadFrame id p i).data[0]
    rw [← Vector.getElem_toList (by rw [Vector.length_toList]; decide)]
    simp [hdata]
  rw [seqByte, CanFrame.toMessage, hlen, hdata, List.take_succ_cons, List.headD_cons, hb]

theorem le_frameHead_last (hp : p.length ≤ transportMax) :
    128 ≤ (frameHead p.length (frameCount p.length - 1)).toNat := by
  have h74 := frameCount_le_74 hp
  have hpred := frameCount_pred p.length
  have hflag : ∀ i < 128, 128 ≤ (fragLastFlag ||| UInt8.ofNat i).toNat := by decide +kernel
  rw [frameHead, if_pos hpred]
  exact hflag _ (by omega)

theorem reassemble_payloadFrames (id : UInt32) (hp : p.length ≤ transportMax) :
    ∃ m, reassemble ((payloadFrames id p).map CanFrame.toMessage) = .error (.valueError m) := by
  have h74 := frameCount_le_74 hp
  have hpos : frameCount p.length - 1 < frameCount p.length := by
    have hpred := frameCount_pred p.length
    omega
  cases hr : reassemble ((payloadFrames id p).map CanFrame.toMessage) with
  | error e =>
    obtain ⟨m, rfl⟩ := reassemble_error hr
    exact ⟨m, rfl⟩
  | ok q =>
    -- the last frame's first byte would have to be one of the numbers `0, 1, ..`
    exfalso
    obtain ⟨S, hperm, hnumbered, -, -⟩ := reassemble_ok_iff.1 hr
    have hlast : (payloadFrame id p (frameCount p.length - 1)).toMessage ∈ S :=
      hperm.mem_iff.2 (List.mem_map_of_mem (List.mem_map_of_mem (List.mem_range.2 hpos)))
    have hkey : (seqByte (payloadFrame id p (frameCount p.length - 1)).toMessage).toNat ∈
        List.range S.length := by
      rw [← hnumbered]
      exact List.mem_map_of_mem hlast
    have hlength : S.length = frameCount p.length := by
      rw [hperm.length_eq, List.length_map, payloadFrames, List.length_map, List.length_range]
    have hbig := le_frameHead_last hp
    rw [List.mem_range, seqByte_payloadFrame, hlength] at hkey
    omega

/-- **No payload of the firmware is read by the software.** -/
theorem not_softwareReads (id : UInt32) (p : Bytes) (hp : p.length ≤ 512) :
    ¬ SoftwareReads id p := by
  obtain ⟨m, herror⟩ := reassemble_payloadFrames id hp
  intro h
  rw [SoftwareReads, sendPayload_all id hp, herror] at h
  cases h

/-- The longest payload. -/
theorem not_softwareReads_longest : ¬ SoftwareReads canIdCertificate (List.replicate 512 0) :=
  not_softwareReads _ _ (by rw [List.length_replicate])

/-- A single frame is enough. -/
theorem not_softwareReads_two : ¬ SoftwareReads canIdNonce [1, 2] := by
  unfold SoftwareReads
  decide +kernel

/-! ## From the software to the firmware -/

/-- `battlock_reassembly_feed` gives the payload `fragment` was called with, at its last frame. -/
structure FirmwareReads (r : BattLockReassembly) (p : Bytes) (frames : List CanFrame) : Prop where
  answers : r.answers frames = List.replicate (frames.length - 1) false ++ [true]
  len : (r.feedAll frames).len.toNat = p.length
  buffer : (r.feedAll frames).buffer.toList.take p.length = p

theorem data_ofMessage (id : Int) (p : Bytes) (i : Nat) :
    (CanFrame.ofMessage (frameAt id p i)).data =
      zeroExtend 8 (frameHeader p.length i ++ chunk p i) := rfl

theorem data_zero_ofMessage (id : Int) (p : Bytes) (i : Nat) :
    (CanFrame.ofMessage (frameAt id p i)).data.get 0 = .ofNat i := by
  simp only [data_ofMessage, get_zeroExtend, frameHeader]
  split
  · rename_i h
    subst h
    rfl
  · rfl

theorem isHead_ofMessage (id : Int) (hi : i < 128) :
    (CanFrame.ofMessage (frameAt id p i)).IsHead ↔ i = 0 := by
  rw [CanFrame.IsHead, data_zero_ofMessage]
  exact (head_bits i hi).1.1

theorem not_isLast_ofMessage (id : Int) (hi : i < 128) :
    ¬ (CanFrame.ofMessage (frameAt id p i)).IsLast := by
  rw [CanFrame.IsLast, data_zero_ofMessage]
  exact fun h => h (head_bits i hi).2.1

theorem declared_ofMessage (id : Int) (hp : p.length ≤ transportMax) :
    (CanFrame.ofMessage (frameAt id p 0)).declared = p.length := by
  have hmax : transportMax = 512 := rfl
  have hlow : (CanFrame.ofMessage (frameAt id p 0)).data.get 1 = .ofNat p.length :=
    (get_zeroExtend _ 1).trans rfl
  have hhigh : (CanFrame.ofMessage (frameAt id p 0)).data.get 2 = .ofNat (p.length / 256) :=
    (get_zeroExtend _ 2).trans rfl
  rw [CanFrame.declared, hlow, hhigh]
  simp only [LittleEndian.value, UInt8.toNat_ofNat']
  omega

theorem carried_ofMessage (id : Int) (p : Bytes) (hi : i ≠ 0) :
    (CanFrame.ofMessage (frameAt id p i)).carried = chunk p i := by
  have hchunk := length_chunk p i
  have hdata : frameHeader p.length i ++ chunk p i = .ofNat i :: chunk p i := by
    rw [frameHeader, if_neg hi, List.singleton_append]
  have hlen : (CanFrame.ofMessage (frameAt id p i)).len.toNat = (chunk p i).length + 1 := by
    show (UInt8.ofNat (frameHeader p.length i ++ chunk p i).length).toNat = _
    rw [hdata, List.length_cons, UInt8.toNat_ofNat']
    omega
  rw [CanFrame.carried, hlen, data_ofMessage, hdata, toList_zeroExtend (by simp; omega),
    List.cons_append, List.drop_succ_cons, List.drop_zero, Nat.add_sub_cancel,
    Nat.min_eq_left (by omega), List.take_left]

/-- The bytes of the first frame behind its header: the first chunk, zero-extended. -/
theorem drop_ofMessage_zero (id : Int) (p : Bytes) :
    (CanFrame.ofMessage (frameAt id p 0)).data.toList.drop 3 =
      chunk p 0 ++ List.replicate (5 - (chunk p 0).length) 0 := by
  have hchunk := length_chunk p 0
  rw [data_ofMessage, frameHeader, if_pos rfl, toList_zeroExtend (by simp; omega)]
  simp only [List.cons_append, List.nil_append, List.drop_succ_cons, List.drop_zero,
    List.length_cons]
  rw [show 8 - ((chunk p 0).length + 1 + 1 + 1) = 5 - (chunk p 0).length by omega]

/-- The chunks of a payload are the payload; the zeros behind the first are of no account. -/
theorem take_chunks (p : Bytes) :
    (chunk p 0 ++ List.replicate (5 - (chunk p 0).length) 0 ++
      ((List.range' 1 (frameCount p.length - 1)).map (chunk p)).flatten).take p.length = p := by
  have hall :
      chunk p 0 ++ ((List.range' 1 (frameCount p.length - 1)).map (chunk p)).flatten = p := by
    have hlast := le_of_frameCount_le (Nat.le_refl (frameCount p.length))
    have h := flatMap_chunk p (frameCount p.length)
    rw [List.take_of_length_le hlast, range_frameCount, List.flatMap_cons, List.flatMap_def] at h
    exact h
  have hchunk := length_chunk p 0
  rcases Nat.lt_or_ge 5 p.length with hlt | hle
  · rw [show 5 - (chunk p 0).length = 0 by omega, List.replicate_zero, List.append_nil, hall,
      List.take_length]
  · have hone : frameCount p.length - 1 = 0 := by unfold frameCount; omega
    rw [hone, List.range'_zero, List.map_nil, List.flatten_nil, List.append_nil] at hall ⊢
    rw [hall, List.take_left]

/-- **What the firmware makes of the software's frames**: the payload, but never the end of it. -/
theorem fragment_fed (id : Int) (hp : p.length ≤ transportMax) (r : BattLockReassembly) :
    ∃ frames, fragment id p = .ok frames ∧
      (∀ b ∈ r.answers (frames.map .ofMessage), b = false) ∧
      (r.feedAll (frames.map .ofMessage)).Holds p.length p := by
  have h74 := frameCount_le_74 hp
  have hmax : p.length ≤ maxPayload := by
    simp only [transportMax] at hp
    simp only [maxPayload, firstFramePayload, maxSequence, contFramePayload]
    omega
  refine ⟨_, fragment_eq id hmax, ?_, ?_⟩
  · intro b hb
    rw [BattLockReassembly.answers_eq, List.map_map, List.map_map] at hb
    obtain ⟨i, hi, rfl⟩ := List.mem_map.1 hb
    have hlt := List.mem_range.1 hi
    exact decide_eq_false (not_isLast_ofMessage id (by omega))
  · have hdeclared := declared_ofMessage id hp
    have hlater : ∀ f ∈ (List.range' 1 (frameCount p.length - 1)).map
        (CanFrame.ofMessage ∘ frameAt id p), ¬ f.IsHead := by
      intro f hf
      obtain ⟨i, hi, rfl⟩ := List.mem_map.1 hf
      obtain ⟨j, hj, rfl⟩ := List.mem_range'.1 hi
      rw [Function.comp_apply, isHead_ofMessage id (by omega)]
      omega
    have hcarried : ((List.range' 1 (frameCount p.length - 1)).map
        (CanFrame.ofMessage ∘ frameAt id p)).map CanFrame.carried =
          (List.range' 1 (frameCount p.length - 1)).map (chunk p) := by
      rw [List.map_map]
      apply List.map_congr_left
      intro i hi
      obtain ⟨j, -, rfl⟩ := List.mem_range'.1 hi
      exact carried_ofMessage id p (by omega)
    have h := BattLockReassembly.holds_message (f := .ofMessage (frameAt id p 0)) r
      ((isHead_ofMessage id (by omega)).2 rfl) (by rw [hdeclared]; exact hp) hlater
    rw [hdeclared, drop_ofMessage_zero, hcarried, take_chunks] at h
    rw [List.map_map, range_frameCount, List.map_cons]
    exact h

/-- **No payload of the software is read by the firmware**: `feed` never returns true. -/
theorem not_firmwareReads (id : Int) (p : Bytes) (hp : p.length ≤ 512) (r : BattLockReassembly) :
    ¬ ∃ frames, fragment id p = .ok frames ∧ FirmwareReads r p (frames.map .ofMessage) := by
  obtain ⟨frames, hframes, hanswers, -⟩ := fragment_fed id hp r
  rintro ⟨frames', hframes', hreads⟩
  rw [hframes, Except.ok.injEq] at hframes'
  subst hframes'
  have htrue : true ∈ r.answers (frames.map .ofMessage) := by
    rw [hreads.answers]
    exact List.mem_append_right _ List.mem_cons_self
  exact Bool.noConfusion (hanswers true htrue)

/-- A nonce. -/
theorem not_firmwareReads_nonce :
    ¬ ∃ frames, fragment 0x101 (List.replicate 32 7) = .ok frames ∧
      FirmwareReads {} (List.replicate 32 7) (frames.map .ofMessage) :=
  not_firmwareReads _ _ (by decide) _

/-- A single frame is enough. -/
theorem not_firmwareReads_two :
    ¬ ∃ frames, fragment 0x101 [1, 2] = .ok frames ∧
      FirmwareReads {} [1, 2] (frames.map .ofMessage) := by
  rintro ⟨frames, hframes, hreads⟩
  have hfragment : fragment 0x101 [1, 2] = .ok [⟨0x101, [0, 2, 0, 1, 2]⟩] := by decide +kernel
  rw [hfragment, Except.ok.injEq] at hframes
  subst hframes
  have hanswers := hreads.answers
  revert hanswers
  decide +kernel

end

end BattLock.Hardware
