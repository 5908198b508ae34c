import BattLock.Can.Proof.Fragment
import BattLock.Lib.LittleEndian

/-!
# What `reassemble` accepts

`reassemble_ok_iff`: a list of frames is accepted exactly when every frame passes the checks and
the list can be put in an order with the sequence numbers `0, 1, ..` whose data `joinFrames`
accepts; the order is unique, and it is the one the sort finds (`sortFrames_eq`). Every failure is
a `ValueError` (`reassemble_error`).

`reassemble_fragment` applies this to lists drawn from the frames of one payload: a subset with
the numbers `0 .. n - 1` carries the payload's first `7 n - 2` bytes (`joinFrames_take`), so it is
short of the declared length unless it is all of them.
-/

namespace BattLock.Transport

open Python

/-! ## The checks -/

/-- The sequence byte of a frame (0 if it has none). -/
def seqByte (f : CANMessage) : UInt8 := f.data.headD 0

/-- A frame that passes the checks of `reassemble` for an arbitration id. -/
def WellFormed (id : Int) (f : CANMessage) : Prop :=
  f.arbitrationId = id ∧ f.data ≠ [] ∧ f.data.length ≤ 8

theorem checkFrames_ok {id : Int} :
    ∀ {L : List CANMessage}, checkFrames id L = .ok () ↔ ∀ f ∈ L, WellFormed id f
  | [] => by simp [checkFrames]
  | f :: L => by
    rw [checkFrames, List.forall_mem_cons, ← checkFrames_ok (L := L)]
    by_cases hid : f.arbitrationId = id
    · by_cases hnil : f.data = []
      · simp [WellFormed, hid, hnil]
      · by_cases h8 : f.data.length ≤ 8
        · simp [WellFormed, hid, hnil, h8, Nat.not_lt.2 h8]
        · simp [WellFormed, hid, hnil, h8, Nat.lt_of_not_le h8]
    · simp [WellFormed, hid]

theorem checkFrames_error {id : Int} {e : Err} :
    ∀ {L : List CANMessage}, checkFrames id L = .error e → ∃ m, e = .valueError m
  | [], h => by cases h
  | f :: L, h => by
    rw [checkFrames] at h
    split at h
    · cases h; exact ⟨_, rfl⟩
    split at h
    · cases h; exact ⟨_, rfl⟩
    split at h
    · cases h; exact ⟨_, rfl⟩
    · exact checkFrames_error h

theorem sortKeys_eq : ∀ {L : List CANMessage}, (∀ f ∈ L, f.data ≠ []) →
    sortKeys L = .ok (L.map fun f => (seqByte f, f))
  | [], _ => rfl
  | f :: L, h => by
    have hf : item f.data 0 = .ok (seqByte f) := by
      cases hd : f.data with
      | nil => exact absurd hd (h f List.mem_cons_self)
      | cons b bs => rw [seqByte, hd]; rfl
    rw [sortKeys, hf, sortKeys_eq fun g hg => h g (List.mem_cons_of_mem _ hg)]
    rfl

theorem joinFrames_error {e : Err} : ∀ {L : List CANMessage}, L ≠ [] →
    joinFrames L = .error e → ∃ m, e = .valueError m
  | [], h, _ => absurd rfl h
  | f :: L, _, h => by
    rw [joinFrames] at h
    split at h
    · cases h; exact ⟨_, rfl⟩
    · rename_i hlen
      rw [item_of_lt (by omega), item_of_lt (by omega)] at h
      simp only [ok_bind] at h
      split at h
      · cases h; exact ⟨_, rfl⟩
      · cases h

/-! ## The order -/

/-- The frames by sequence byte, frames with the same byte in the order of the list. -/
def sortFrames (L : List CANMessage) : List CANMessage :=
  L.insertionSort (fun f g => seqByte f ≤ seqByte g)

/-- `S` lists its frames in the order of their numbers `0, 1, ..`. -/
def Numbered (S : List CANMessage) : Prop :=
  S.map (fun f => (seqByte f).toNat) = List.range S.length

theorem sortFrames_eq {S L : List CANMessage} (hp : S.Perm L) (hS : Numbered S) :
    sortFrames L = S := by
  have hnodup : (S.map fun f => (seqByte f).toNat).Nodup := by rw [hS]; exact List.nodup_range
  have hle : S.Pairwise (fun f g => seqByte f ≤ seqByte g) := by
    have := List.pairwise_le_range (n := S.length)
    rw [← hS, List.pairwise_map] at this
    exact this.imp fun h => UInt8.le_iff_toNat_le.2 h
  have : IsTrans CANMessage (fun f g => seqByte f ≤ seqByte g) := ⟨fun _ _ _ => UInt8.le_trans⟩
  have : Std.Total (α := CANMessage) (fun f g => seqByte f ≤ seqByte g) :=
    ⟨fun f g => UInt8.le_total _ _⟩
  have hperm : (sortFrames L).Perm S := (List.perm_insertionSort _ L).trans hp.symm
  have hsorted : (sortFrames L).Pairwise (fun f g => seqByte f ≤ seqByte g) :=
    List.pairwise_insertionSort _ L
  refine hperm.eq_of_pairwise (fun f g hf hg h1 h2 => ?_) hsorted hle
  have hkey : (seqByte f).toNat = (seqByte g).toNat :=
    congrArg UInt8.toNat (UInt8.le_antisymm h1 h2)
  exact List.inj_on_of_nodup_map hnodup (hperm.mem_iff.1 hf) hg hkey

/-- After the checks, `reassemble` joins the sorted frames if they are numbered. -/
theorem reassemble_checked {f : CANMessage} {L : List CANMessage}
    (h : ∀ g ∈ f :: L, WellFormed f.arbitrationId g) :
    (Numbered (sortFrames (f :: L)) →
      reassemble (f :: L) = joinFrames (sortFrames (f :: L))) ∧
    (¬ Numbered (sortFrames (f :: L)) → ∃ m, reassemble (f :: L) = .error (.valueError m)) := by
  have hsort : ((f :: L).map fun g => (seqByte g, g)).insertionSort (fun a b => a.1 ≤ b.1) =
      (sortFrames (f :: L)).map fun g => (seqByte g, g) :=
    (List.map_insertionSort (fun f g => seqByte f ≤ seqByte g) _ (fun g => (seqByte g, g)) _
      fun _ _ _ _ => Iff.rfl).symm
  rw [reassemble, checkFrames_ok.2 h, ok_bind, sortKeys_eq fun g hg => (h g hg).2.1, ok_bind, hsort]
  simp only [Numbered, ne_eq, List.map_map, Function.comp_def, List.length_map, List.map_id']
  constructor
  · intro hn
    rw [if_neg (not_not.2 hn)]
  · intro hn
    rw [if_pos hn]
    split <;> exact ⟨_, rfl⟩

/-- **What `reassemble` accepts**, and what it returns. -/
theorem reassemble_ok_iff {L : List CANMessage} {q : Bytes} :
    reassemble L = .ok q ↔ ∃ S, S.Perm L ∧ Numbered S ∧ joinFrames S = .ok q ∧
      ∃ id, ∀ f ∈ L, WellFormed id f := by
  cases L with
  | nil =>
    simp only [reassemble, reduceCtorEq, false_iff, List.perm_nil, not_exists]
    rintro S ⟨rfl, -, h, -⟩
    cases h
  | cons f L =>
    constructor
    · intro h
      have hcheck : ∀ g ∈ f :: L, WellFormed f.arbitrationId g := by
        rw [reassemble, bind_eq_ok] at h
        obtain ⟨u, hu, -⟩ := h
        exact checkFrames_ok.1 hu
      obtain ⟨h1, h2⟩ := reassemble_checked hcheck
      by_cases hn : Numbered (sortFrames (f :: L))
      · have hjoin := (h1 hn).symm.trans h
        exact ⟨sortFrames (f :: L), List.perm_insertionSort _ _, hn, hjoin, _, hcheck⟩
      · obtain ⟨m, hm⟩ := h2 hn
        rw [hm] at h
        cases h
    · rintro ⟨S, hp, hS, hq, id, hid⟩
      have hf : f.arbitrationId = id := (hid f List.mem_cons_self).1
      have hsort := sortFrames_eq hp hS
      rw [(reassemble_checked (by rw [hf]; exact hid)).1 (by rw [hsort]; exact hS), hsort, hq]

theorem reassemble_error {L : List CANMessage} {e : Err} (h : reassemble L = .error e) :
    ∃ m, e = .valueError m := by
  cases L with
  | nil => cases h; exact ⟨_, rfl⟩
  | cons f L =>
    by_cases hcheck : ∀ g ∈ f :: L, WellFormed f.arbitrationId g
    · obtain ⟨h1, h2⟩ := reassemble_checked hcheck
      by_cases hn : Numbered (sortFrames (f :: L))
      · refine joinFrames_error (fun h0 => ?_) ((h1 hn).symm.trans h)
        have := (List.perm_insertionSort (fun f g => seqByte f ≤ seqByte g) (f :: L)).length_eq
        rw [show List.insertionSort _ (f :: L) = [] from h0] at this
        simp at this
      · obtain ⟨m, hm⟩ := h2 hn
        rw [hm] at h
        cases h
        exact ⟨m, rfl⟩
    · cases hc : checkFrames f.arbitrationId (f :: L) with
      | ok u => exact absurd (checkFrames_ok.1 hc) hcheck
      | error e' =>
        rw [reassemble, hc] at h
        cases h
        exact checkFrames_error hc

/-! ## Frames of one payload -/

section
variable {id : Int} {p : Bytes}

theorem seqByte_frameAt {i : Nat} (hi : i < 256) :
    (seqByte (frameAt id p i)).toNat = i := by
  rw [seqByte, frameAt, frameHeader]
  split
  · rename_i h; subst h; rfl
  · exact UInt8.toNat_ofNat_of_lt' hi

theorem wellFormed_frameAt (i : Nat) : WellFormed id (frameAt id p i) := by
  have h := length_chunk p i
  refine ⟨rfl, ?_, ?_⟩ <;> simp only [frameAt, frameHeader] <;> split <;>
    simp only [ne_eq, List.append_eq_nil_iff, List.cons_ne_nil, false_and, not_false_eq_true,
      List.length_append, List.length_cons, List.length_nil] <;> omega

theorem eq_take_of_numbered (hp : p.length ≤ maxPayload) {S : List CANMessage} (hS : Numbered S)
    (hmem : ∀ f ∈ S, ∃ i < frameCount p.length, f = frameAt id p i) :
    S = (List.range S.length).map (frameAt id p) := by
  have h256 := frameCount_le hp
  have hkey : ∀ f ∈ S, f = frameAt id p (seqByte f).toNat := by
    intro f hf
    obtain ⟨i, hi, rfl⟩ := hmem f hf
    rw [seqByte_frameAt (by omega)]
  rw [← hS, List.map_map]
  exact (List.map_id S).symm.trans (List.map_congr_left hkey)

theorem length_le_of_numbered (hp : p.length ≤ maxPayload) {S : List CANMessage} (hS : Numbered S)
    (hmem : ∀ f ∈ S, ∃ i < frameCount p.length, f = frameAt id p i) :
    S.length ≤ frameCount p.length := by
  by_contra hlt
  have hlast : frameCount p.length ∈ S.map fun f => (seqByte f).toNat := by
    rw [hS, List.mem_range]
    omega
  obtain ⟨f, hf, hkey⟩ := List.mem_map.1 hlast
  obtain ⟨i, hi, rfl⟩ := hmem f hf
  have := frameCount_le hp
  rw [seqByte_frameAt (by omega)] at hkey
  omega

theorem length_header {n : Nat} (hn : n < 65536) :
    (UInt8.ofNat n).toNat ||| (UInt8.ofNat (n / 256)).toNat <<< 8 = n := by
  rw [LittleEndian.or_shiftLeft]
  exact LittleEndian.value_bytes_of_lt (n := 2) hn

theorem foldl_drop (is : List Nat) (h : ∀ i ∈ is, i ≠ 0) (q : Bytes) :
    (is.map (frameAt id p)).foldl (fun q f => q ++ f.data.drop 1) q =
      q ++ is.flatMap (chunk p) := by
  have hdata : is.flatMap (fun i => (frameAt id p i).data.drop 1) = is.flatMap (chunk p) :=
    List.flatMap_congr fun i hi => drop_frameAt id p (h i hi)
  rw [List.foldl_append_eq_append, List.map_map, ← hdata]
  rfl

/-- The first `n + 1` frames of a payload carry its first `7 (n + 1) - 2` bytes: they are joined
to the payload, unless it is longer. -/
theorem joinFrames_take (hp : p.length ≤ maxPayload) (n : Nat) :
    joinFrames ((List.range (n + 1)).map (frameAt id p)) =
      if 7 * (n + 1) - 2 < p.length then
        .error (.valueError (s!"incomplete message: got {7 * (n + 1) - 2} bytes, " ++
          s!"expected {p.length}"))
      else .ok p := by
  have h65536 : p.length < 65536 := by
    simp only [maxPayload, firstFramePayload, maxSequence, contFramePayload] at hp
    omega
  have hpayload : ((List.range' 1 n).map (frameAt id p)).foldl
      (fun q f => q ++ f.data.drop 1) ((frameAt id p 0).data.drop 3) =
        p.take (7 * (n + 1) - 2) := by
    rw [foldl_drop _ fun i hi => by have := List.mem_range'_1.1 hi; omega, ← flatMap_chunk,
      List.range_eq_range', List.range'_succ, List.flatMap_cons]
    rfl
  have h1 : item (frameAt id p 0).data 1 = .ok (UInt8.ofNat p.length) := rfl
  have h2 : item (frameAt id p 0).data 2 = .ok (UInt8.ofNat (p.length / 256)) := rfl
  have h3 : ¬ (frameAt id p 0).data.length < 3 := by simp [frameAt, frameHeader]
  rw [List.range_eq_range', List.range'_succ, List.map_cons, joinFrames, if_neg h3, h1, h2]
  simp only [ok_bind, length_header h65536, hpayload, List.length_take, pure_eq_ok]
  by_cases hlt : 7 * (n + 1) - 2 < p.length
  · rw [if_pos (by omega), if_pos hlt, Nat.min_eq_left (by omega)]
  · rw [if_neg (by omega), if_neg hlt, List.take_take, List.take_of_length_le (by omega)]

theorem reassemble_perm (hp : p.length ≤ maxPayload) {L : List CANMessage}
    (hperm : L.Perm ((List.range (frameCount p.length)).map (frameAt id p))) :
    reassemble L = .ok p := by
  have hwf : ∀ f ∈ L, WellFormed id f := by
    intro f hf
    obtain ⟨i, -, rfl⟩ := List.mem_map.1 (hperm.mem_iff.1 hf)
    exact wellFormed_frameAt i
  have hnum : Numbered ((List.range (frameCount p.length)).map (frameAt id p)) := by
    rw [Numbered, List.map_map, List.length_map, List.length_range]
    refine (List.map_congr_left fun i hi => ?_).trans (List.map_id _)
    exact seqByte_frameAt (Nat.lt_of_lt_of_le (List.mem_range.1 hi) (frameCount_le hp))
  obtain ⟨n, hn⟩ : ∃ n, frameCount p.length = n + 1 := ⟨_, Nat.add_comm _ _⟩
  have hjoin : joinFrames ((List.range (n + 1)).map (frameAt id p)) = _ := joinFrames_take hp n
  rw [if_neg (Nat.not_lt.2 (le_of_frameCount_le (Nat.le_of_eq hn))), ← hn] at hjoin
  exact reassemble_ok_iff.2 ⟨_, hperm.symm, hnum, hjoin, id, hwf⟩

/-- **Reassembly of a payload's frames**: any list drawn from them is joined to the payload if it
holds each of them once, and is refused otherwise. -/
theorem reassemble_fragment (id : Int) (p : Bytes) (hp : p.length ≤ 1790) :
    ∃ frames, fragment id p = .ok frames ∧
      ∀ L : List CANMessage, (∀ f ∈ L, f ∈ frames) →
        (L.Perm frames → reassemble L = .ok p) ∧
        (¬ L.Perm frames → ∃ m, reassemble L = .error (.valueError m)) := by
  refine ⟨_, fragment_eq id hp, fun L hL => ?_⟩
  have hmem : ∀ f ∈ L, ∃ i < frameCount p.length, f = frameAt id p i := by
    intro f hf
    obtain ⟨i, hi, rfl⟩ := List.mem_map.1 (hL f hf)
    exact ⟨i, List.mem_range.1 hi, rfl⟩
  constructor
  · exact reassemble_perm hp
  · intro hperm
    cases hre : reassemble L with
    | error e =>
      obtain ⟨m, rfl⟩ := reassemble_error hre
      exact ⟨m, rfl⟩
    | ok q =>
      exfalso
      obtain ⟨S, hSL, hnum, hjoin, -⟩ := reassemble_ok_iff.1 hre
      have hmemS : ∀ f ∈ S, ∃ i < frameCount p.length, f = frameAt id p i :=
        fun f hf => hmem f (hSL.mem_iff.1 hf)
      have hS := eq_take_of_numbered hp hnum hmemS
      have hle := length_le_of_numbered hp hnum hmemS
      cases hlen : S.length with
      | zero =>
        rw [List.length_eq_zero_iff.1 hlen] at hjoin
        cases hjoin
      | succ k =>
        rw [hlen] at hS
        rw [hS, joinFrames_take hp] at hjoin
        split at hjoin
        · cases hjoin
        · rename_i hlt
          have : frameCount p.length = k + 1 := by
            rcases Nat.lt_or_ge (k + 1) (frameCount p.length) with h | h
            · exact absurd ((lt_frameCount (by omega)).1 h) hlt
            · omega
          rw [this, ← hS] at hperm
          exact hperm hSL.symm

theorem reassemble_fragment_nine :
    reassemble [⟨0x123, [1, 6, 7, 8, 9]⟩, ⟨0x123, [0, 9, 0, 1, 2, 3, 4, 5]⟩] =
        .ok [1, 2, 3, 4, 5, 6, 7, 8, 9] ∧
      ∃ m, reassemble [⟨0x123, [1, 6, 7, 8, 9]⟩] = .error (.valueError m) := by
  obtain ⟨frames, hframes, h⟩ :=
    reassemble_fragment 0x123 [1, 2, 3, 4, 5, 6, 7, 8, 9] (by decide)
  have heq : fragment 0x123 [1, 2, 3, 4, 5, 6, 7, 8, 9] =
      .ok [⟨0x123, [0, 9, 0, 1, 2, 3, 4, 5]⟩, ⟨0x123, [1, 6, 7, 8, 9]⟩] := by
    decide +kernel
  rw [heq] at hframes
  cases hframes
  exact ⟨(h _ (by decide)).1 (List.Perm.swap _ _ _), (h _ (by decide)).2 (by decide)⟩

end

end BattLock.Transport
