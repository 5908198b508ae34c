import BattLock.Hardware.Proof.SendPayload

/-!
# Lost, repeated and reordered frames

`battlock_reassembly_feed` does not look at sequence numbers beyond telling a first frame from a
later one. `neverWrong_iff` says what that costs, for any list of frames of one payload: a message
is right whenever `feed` says it is complete if and only if, each time, the frames after the last
first frame carry the payload's bytes in order (`Complete`). Where they do not, a wrong message is
delivered, also one of the right length.
-/

namespace BattLock.Hardware

open Python Transport

variable {id : UInt32} {p : Bytes} {L B : List CanFrame}

/-- Whenever `feed` returns true, the reassembly has the declared length and holds the payload. -/
def NeverWrong (p : Bytes) (L : List CanFrame) : Prop :=
  ∀ L₁ f L₂, L = L₁ ++ f :: L₂ →
    ((BattLockReassembly.feedAll {} L₁).feed f.data f.len).2 = true →
    let r := ((BattLockReassembly.feedAll {} L₁).feed f.data f.len).1
    r.len.toNat = p.length ∧ r.buffer.toList.take r.len.toNat = p

/-- For each later fragment of the payload, the frame in its place carries its payload bytes. -/
def Complete (p : Bytes) (B : List CanFrame) : Prop :=
  ∀ i < frameCount p.length - 1,
    ∃ g, B[i]? = some g ∧ g.carried.take (p.length - (7 * i + 5)) = chunk p (i + 1)

/-- Each frame that ends a message comes after a first frame, and since the last first frame the
payload has arrived in order. -/
def InOrder (p : Bytes) (L : List CanFrame) : Prop :=
  ∀ L₁ f L₂, L = L₁ ++ f :: L₂ → f.IsLast →
    ∃ A first B, L₁ ++ [f] = A ++ first :: B ∧ first.IsHead ∧ (∀ g ∈ B, ¬ g.IsHead) ∧
      Complete p B

theorem complete_iff : Complete p B ↔ Chunks.Blocks 7 (p.drop 5) (B.map CanFrame.carried) := by
  have hcount (i : Nat) : i < frameCount p.length - 1 ↔ i * 7 < (p.drop 5).length := by
    rw [List.length_drop]
    unfold frameCount
    omega
  have hchunk (i : Nat) : ((p.drop 5).drop (i * 7)).take 7 = chunk p (i + 1) := by
    rw [chunk, slice, List.drop_drop, show 7 * (i + 1) - 2 = 5 + i * 7 by omega,
      show 7 * (i + 1) + 5 - (5 + i * 7) = 7 by omega]
  have hlen (i : Nat) : (p.drop 5).length - i * 7 = p.length - (7 * i + 5) := by
    rw [List.length_drop]
    omega
  unfold Complete Chunks.Blocks
  simp only [hcount, hchunk, hlen, List.getElem?_map, Option.map_eq_some_iff,
    exists_exists_and_eq_and]

/-! ## The last first frame -/

theorem exists_last {α : Type} (P : α → Prop) [DecidablePred P] (l : List α) :
    (∀ x ∈ l, ¬ P x) ∨ ∃ A x B, l = A ++ x :: B ∧ P x ∧ ∀ y ∈ B, ¬ P y := by
  cases h : l.reverse.find? (fun x => decide (P x)) with
  | none => left; simpa using h
  | some x =>
    right
    obtain ⟨hx, as, bs, hsplit, has⟩ := List.find?_eq_some_iff_append.1 h
    refine ⟨bs.reverse, x, as.reverse, ?_, by simpa using hx, fun y hy => ?_⟩
    · rw [← List.reverse_reverse l, hsplit]
      simp
    · simpa using has y (List.mem_reverse.1 hy)

theorem mem_payloadFrames {f : CanFrame} (hp : p.length ≤ transportMax)
    (hf : f ∈ payloadFrames id p) :
    ∃ i < 74, i < frameCount p.length ∧ f = payloadFrame id p i := by
  have h74 := frameCount_le_74 hp
  obtain ⟨i, hi, rfl⟩ := List.mem_map.1 hf
  have hlt := List.mem_range.1 hi
  exact ⟨i, by omega, hlt, rfl⟩

theorem eq_of_isHead {f : CanFrame} (hp : p.length ≤ transportMax) (hf : f ∈ payloadFrames id p)
    (hhead : f.IsHead) : f = payloadFrame id p 0 := by
  obtain ⟨i, hi, -, rfl⟩ := mem_payloadFrames hp hf
  rw [(isHead_payloadFrame (by omega)).1 hhead]

/-- Before any first frame a complete message is empty, which the payload is not. -/
theorem exists_head (hp : p.length ≤ transportMax) (hL : ∀ f ∈ L, f ∈ payloadFrames id p)
    (hne : L ≠ []) (hlen : (BattLockReassembly.feedAll {} L).len.toNat = p.length) :
    ∃ A first B, L = A ++ first :: B ∧ first.IsHead ∧ ∀ g ∈ B, ¬ g.IsHead := by
  rcases exists_last CanFrame.IsHead L with hnone | hsome
  · exfalso
    have hempty : BattLockReassembly.Holds {} 0 [] := ⟨rfl, rfl, rfl, Nat.le_refl 0⟩
    have h := (hempty.feedAll (Nat.zero_le _) hnone).len_eq
    rw [List.take_zero, List.length_nil, hlen] at h
    obtain ⟨f, hf⟩ := List.exists_mem_of_ne_nil L hne
    obtain ⟨i, hi, hcount, rfl⟩ := mem_payloadFrames hp (hL f hf)
    have hone : frameCount p.length = 1 := by rw [h]; rfl
    exact hnone _ hf ((isHead_payloadFrame (by omega)).2 (by omega))
  · exact hsome

/-! ## Exactness -/

theorem right_iff (hp : p.length ≤ transportMax) {A : List CanFrame} {first : CanFrame}
    (hfirst : first = payloadFrame id p 0) (hlen : ∀ g ∈ B, g.len = canDataLen)
    (hB : ∀ g ∈ B, ¬ g.IsHead) :
    ((BattLockReassembly.feedAll {} (A ++ first :: B)).len.toNat = p.length ∧
      (BattLockReassembly.feedAll {} (A ++ first :: B)).buffer.toList.take
        (BattLockReassembly.feedAll {} (A ++ first :: B)).len.toNat = p) ↔ Complete p B := by
  subst hfirst
  have hdeclared := declared_payloadFrame id hp
  have hseven : ∀ d ∈ B.map CanFrame.carried, d.length = 7 := by
    intro d hd
    obtain ⟨g, hg, rfl⟩ := List.mem_map.1 hd
    rw [CanFrame.length_carried, hlen g hg]
    rfl
  have h := BattLockReassembly.holds_message (f := payloadFrame id p 0)
    (BattLockReassembly.feedAll {} A) ((isHead_payloadFrame (by decide)).2 rfl)
    (by rw [hdeclared]; exact hp) hB
  rw [hdeclared, drop_payloadFrame_zero hp] at h
  rw [BattLockReassembly.feedAll_append, h.len_eq, h.buffer_eq, take_message_iff hseven,
    ← complete_iff]
  refine and_iff_right_of_imp fun hcomplete => ?_
  rw [(take_message_iff hseven).2 (complete_iff.1 hcomplete)]

/-- **When the firmware's reassembly is right** about the frames of one payload, whichever of them
are lost, repeated or moved. -/
theorem neverWrong_iff (id : UInt32) (p : Bytes) (hp : p.length ≤ 512) (L : List CanFrame)
    (hL : ∀ f ∈ L, f ∈ (sendPayload (fun _ => true) id p (.ofNat p.length)).1) :
    NeverWrong p L ↔ InOrder p L := by
  rw [sendPayload_all id hp] at hL
  refine forall_congr' fun L₁ => forall_congr' fun f => forall_congr' fun L₂ =>
    forall_congr' fun hsplit => ?_
  have hmem : ∀ g ∈ L₁ ++ [f], g ∈ payloadFrames id p := fun g hg =>
    hL g (by rw [hsplit]; simp only [List.mem_append, List.mem_singleton] at hg; simp; tauto)
  have hparts {A B : List CanFrame} {first : CanFrame} (h : L₁ ++ [f] = A ++ first :: B)
      (hhead : first.IsHead) (hB : ∀ g ∈ B, ¬ g.IsHead) := right_iff (A := A) hp
    (eq_of_isHead hp (hmem first (by rw [h]; simp)) hhead)
    (fun g hg => by
      obtain ⟨i, -, -, rfl⟩ := mem_payloadFrames hp (hmem g (by rw [h]; simp [hg]))
      exact len_payloadFrame) hB
  rw [BattLockReassembly.feed_snd, decide_eq_true_eq]
  refine forall_congr' fun hlast => ?_
  rw [← BattLockReassembly.feedAll_concat]
  constructor
  · intro hright
    obtain ⟨A, first, B, h, hhead, hB⟩ := exists_head hp hmem (by simp) hright.1
    exact ⟨A, first, B, h, hhead, hB, (hparts h hhead hB).1 (by rw [← h]; exact hright)⟩
  · rintro ⟨A, first, B, h, hhead, hB, hcomplete⟩
    rw [h]
    exact (hparts h hhead hB).2 hcomplete

/-- A payload of three frames. -/
def threeFrames : Bytes := (List.range 19).map .ofNat

/-- Its second frame comes again in place of the third, and then the third: 19 bytes, and not the
payload. -/
def repeated : List CanFrame := [0, 1, 1, 2].map (payloadFrame canIdCertificate threeFrames)

theorem neverWrong_iff_repeated : NeverWrong threeFrames repeated ↔ InOrder threeFrames repeated :=
  neverWrong_iff canIdCertificate threeFrames (by decide) repeated (by decide +kernel)

theorem not_neverWrong_repeated :
    (∀ f ∈ repeated, f ∈
      (sendPayload (fun _ => true) canIdCertificate threeFrames (.ofNat threeFrames.length)).1) ∧
      ¬ NeverWrong threeFrames repeated := by
  refine ⟨by decide +kernel, fun h => ?_⟩
  have hlast := h (repeated.take 3) (payloadFrame canIdCertificate threeFrames 2) [] rfl
    (by decide +kernel)
  exact absurd hlast.2 (by decide +kernel)

end BattLock.Hardware
