import BattLock.Can.Proof.Reassemble

/-!
# The messages `reassemble` accepts

`Message L` lists what the transport contract asks of a set of frames, without an order of the
checks and without a sort: the frames are found by their number (`frame?`, `inSequence`).
`reassemble_spec`: exactly the messages are accepted, the result is the start of their bytes in
sequence order, and everything else is a `ValueError`.
-/

namespace BattLock.Transport

open Python

/-- The frame with number `i`. -/
def frame? (L : List CANMessage) (i : Nat) : Option CANMessage :=
  L.find? fun f => (seqByte f).toNat == i

/-- The frames `0, 1, ..` of a list. -/
def inSequence (L : List CANMessage) : List CANMessage :=
  (List.range L.length).filterMap (frame? L)

/-- The bytes after the header: frame 0 has the length behind its number. -/
def frameBytes (f : CANMessage) : Bytes := f.data.drop (if seqByte f = 0 then 3 else 1)

/-- The length a first frame declares, 16 bits little-endian. -/
def declared (f : CANMessage) : Nat := LittleEndian.value (slice f.data 1 3)

/-- The length declared in frame 0. -/
def declaredLength (L : List CANMessage) : Nat := ((frame? L 0).map declared).getD 0

/-- A message that can be rebuilt. -/
structure Message (L : List CANMessage) : Prop where
  nonempty : L ≠ []
  sameId : ∀ f ∈ L, ∀ g ∈ L, f.arbitrationId = g.arbitrationId
  size : ∀ f ∈ L, 1 ≤ f.data.length ∧ f.data.length ≤ 8
  /-- The numbers are `0 .. N - 1`, each once. -/
  numbers : (L.map fun f => (seqByte f).toNat).Perm (List.range L.length)
  header : ∀ f ∈ L, seqByte f = 0 → 3 ≤ f.data.length
  enough : declaredLength L ≤ ((inSequence L).flatMap frameBytes).length

/-! ## The order -/

/-- Frames with the numbers `0 .. N - 1` have a numbered order. -/
theorem exists_numbered {L : List CANMessage} :
    (L.map fun f => (seqByte f).toNat).Perm (List.range L.length) ↔
      ∃ S, S.Perm L ∧ Numbered S := by
  constructor
  · intro h
    have hperm : (sortFrames L).Perm L := List.perm_insertionSort _ L
    refine ⟨sortFrames L, hperm, ?_⟩
    have : IsTrans CANMessage (fun f g => seqByte f ≤ seqByte g) := ⟨fun _ _ _ => UInt8.le_trans⟩
    have : Std.Total (α := CANMessage) (fun f g => seqByte f ≤ seqByte g) :=
      ⟨fun f g => UInt8.le_total _ _⟩
    have hsorted : (sortFrames L).Pairwise (fun f g => seqByte f ≤ seqByte g) :=
      List.pairwise_insertionSort _ L
    have hkeys : ((sortFrames L).map fun f => (seqByte f).toNat).Pairwise (· ≤ ·) := by
      rw [List.pairwise_map]
      exact hsorted.imp fun h => UInt8.le_iff_toNat_le.1 h
    rw [Numbered, hperm.length_eq]
    exact ((hperm.map _).trans h).eq_of_pairwise (fun _ _ _ _ => Nat.le_antisymm) hkeys
      List.pairwise_le_range
  · rintro ⟨S, hp, hS⟩
    rw [Numbered, hp.length_eq] at hS
    rw [← hS]
    exact hp.symm.map _

theorem frame?_seqByte {S L : List CANMessage} (hp : S.Perm L) (hS : Numbered S)
    {f : CANMessage} (hf : f ∈ S) : frame? L (seqByte f).toNat = some f := by
  have hnodup : (S.map fun f => (seqByte f).toNat).Nodup := by rw [hS]; exact List.nodup_range
  cases hfind : frame? L (seqByte f).toNat with
  | none =>
    have hne := List.find?_eq_none.1 hfind f (hp.mem_iff.1 hf)
    simp at hne
  | some g =>
    have hkey : (seqByte g).toNat = (seqByte f).toNat := by simpa using List.find?_some hfind
    have hg : g ∈ S := hp.mem_iff.2 (List.mem_of_find?_eq_some hfind)
    rw [List.inj_on_of_nodup_map hnodup hg hf hkey]

/-- The numbered order of a list is the one in which its frames are found. -/
theorem inSequence_eq {S L : List CANMessage} (hp : S.Perm L) (hS : Numbered S) :
    inSequence L = S := by
  have hfound : ∀ f ∈ S, frame? L (seqByte f).toNat = some f := fun f => frame?_seqByte hp hS
  rw [inSequence, ← hp.length_eq, ← hS, List.filterMap_map]
  calc S.filterMap (frame? L ∘ fun f => (seqByte f).toNat)
      = S.filterMap some := List.filterMap_congr hfound
    _ = S := List.filterMap_some

/-! ## Frames in order -/

theorem numbered_cons {f : CANMessage} {S : List CANMessage} (h : Numbered (f :: S)) :
    seqByte f = 0 ∧ ∀ g ∈ S, seqByte g ≠ 0 := by
  rw [Numbered, List.map_cons, List.length_cons, List.range_succ_eq_map, List.cons.injEq] at h
  refine ⟨UInt8.toNat_inj.1 h.1, fun g hg h0 => ?_⟩
  have hmem : (seqByte g).toNat ∈ (List.range S.length).map Nat.succ := by
    rw [← h.2]
    exact List.mem_map_of_mem hg
  rw [h0] at hmem
  obtain ⟨i, -, hi⟩ := List.mem_map.1 hmem
  exact Nat.succ_ne_zero i hi

theorem foldl_frameBytes {S : List CANMessage} (h : ∀ g ∈ S, seqByte g ≠ 0) (q : Bytes) :
    S.foldl (fun q g => q ++ g.data.drop 1) q = q ++ S.flatMap frameBytes := by
  have hbytes : S.flatMap (fun g => g.data.drop 1) = S.flatMap frameBytes := by
    refine List.flatMap_congr fun g hg => ?_
    rw [frameBytes, if_neg (h g hg)]
  rw [List.foldl_append_eq_append, ← hbytes]
  rfl

theorem joinFrames_ok_iff {f : CANMessage} {S : List CANMessage} (h : Numbered (f :: S))
    {q : Bytes} : joinFrames (f :: S) = .ok q ↔
      3 ≤ f.data.length ∧ declared f ≤ ((f :: S).flatMap frameBytes).length ∧
        q = ((f :: S).flatMap frameBytes).take (declared f) := by
  obtain ⟨h0, hrest⟩ := numbered_cons h
  have hf : f.data.drop 3 = frameBytes f := by rw [frameBytes, if_pos h0]
  have hpayload : S.foldl (fun q g => q ++ g.data.drop 1) (f.data.drop 3) =
      (f :: S).flatMap frameBytes := by
    rw [foldl_frameBytes hrest, hf, List.flatMap_cons]
  rw [joinFrames]
  by_cases h3 : f.data.length < 3
  · rw [if_pos h3]
    simp [Nat.not_le.2 h3]
  · have h1 : 1 < f.data.length := by omega
    have h2 : 2 < f.data.length := by omega
    have hslice : slice f.data 1 3 = [f.data[1], f.data[2]] := by
      rw [slice, List.drop_eq_getElem_cons h1, List.drop_eq_getElem_cons h2]
      rfl
    have hlen : f.data[1].toNat ||| f.data[2].toNat <<< 8 = declared f := by
      rw [LittleEndian.or_shiftLeft, declared, hslice]
    rw [if_neg h3, item_of_lt h1, item_of_lt h2]
    simp only [ok_bind, hpayload, hlen, pure_eq_ok]
    by_cases hlt : ((f :: S).flatMap frameBytes).length < declared f
    · simp only [hlt, ↓reduceIte, reduceCtorEq, Nat.not_le.2 hlt, false_and, and_false]
    · simp only [hlt, ↓reduceIte, Except.ok.injEq, Nat.not_lt.1 hlt, Nat.not_lt.1 h3, true_and]
      exact eq_comm

/-! ## The result -/

/-- The frames of an accepted list have one id and fit the bus. -/
theorem wellFormed_iff {L : List CANMessage} :
    (∃ id, ∀ f ∈ L, WellFormed id f) ↔ (∀ f ∈ L, ∀ g ∈ L, f.arbitrationId = g.arbitrationId) ∧
      ∀ f ∈ L, 1 ≤ f.data.length ∧ f.data.length ≤ 8 := by
  constructor
  · rintro ⟨id, h⟩
    refine ⟨fun f hf g hg => (h f hf).1.trans (h g hg).1.symm, fun f hf => ?_⟩
    exact ⟨List.length_pos_iff.2 (h f hf).2.1, (h f hf).2.2⟩
  · rintro ⟨hid, hsize⟩
    cases L with
    | nil => exact ⟨0, fun f hf => by cases hf⟩
    | cons f L =>
      refine ⟨f.arbitrationId, fun g hg => ?_⟩
      exact ⟨hid g hg f List.mem_cons_self, List.length_pos_iff.1 (hsize g hg).1, (hsize g hg).2⟩

theorem reassemble_ok_iff_message {L : List CANMessage} {q : Bytes} :
    reassemble L = .ok q ↔
      Message L ∧ q = ((inSequence L).flatMap frameBytes).take (declaredLength L) := by
  -- a list in a numbered order has a frame 0
  have hfirst : ∀ {S : List CANMessage}, S.Perm L → Numbered S → L ≠ [] →
      ∃ f S', S = f :: S' ∧ declaredLength L = declared f := by
    intro S hp hS hL
    cases S with
    | nil => exact absurd hp.nil_eq.symm hL
    | cons f S =>
      have h0 := frame?_seqByte hp hS List.mem_cons_self
      rw [(numbered_cons hS).1] at h0
      refine ⟨f, S, rfl, ?_⟩
      rw [declaredLength, show frame? L 0 = some f from h0]
      rfl
  constructor
  · intro h
    obtain ⟨S, hp, hS, hjoin, hwf⟩ := reassemble_ok_iff.1 h
    have hL : L ≠ [] := by
      rintro rfl
      cases h
    obtain ⟨hid, hsize⟩ := wellFormed_iff.1 hwf
    obtain ⟨f, S, rfl, hdeclared⟩ := hfirst hp hS hL
    obtain ⟨h3, henough, hq⟩ := (joinFrames_ok_iff hS).1 hjoin
    have hseq := inSequence_eq hp hS
    rw [hseq, hdeclared]
    refine ⟨⟨hL, hid, hsize, exists_numbered.2 ⟨_, hp, hS⟩, fun g hg h0 => ?_, ?_⟩, hq⟩
    · rcases List.mem_cons.1 (hp.mem_iff.2 hg) with rfl | hg'
      · exact h3
      · exact absurd h0 ((numbered_cons hS).2 g hg')
    · rw [hseq, hdeclared]
      exact henough
  · rintro ⟨hm, hq⟩
    obtain ⟨S, hp, hS⟩ := exists_numbered.1 hm.numbers
    have henough := hm.enough
    obtain ⟨f, S, rfl, hdeclared⟩ := hfirst hp hS hm.nonempty
    rw [inSequence_eq hp hS, hdeclared] at hq henough
    have h3 := hm.header f (hp.mem_iff.1 List.mem_cons_self) (numbered_cons hS).1
    exact reassemble_ok_iff.2 ⟨_, hp, hS, (joinFrames_ok_iff hS).2 ⟨h3, henough, hq⟩,
      wellFormed_iff.2 ⟨hm.sameId, hm.size⟩⟩

/-- **What `reassemble` does**, for any list of frames: it returns the declared number of bytes of
a message, in sequence order and so in whatever order the frames come, and raises `ValueError` on
everything else. -/
theorem reassemble_spec (L : List CANMessage) :
    (∀ q, reassemble L = .ok q ↔
      Message L ∧ q = ((inSequence L).flatMap frameBytes).take (declaredLength L)) ∧
    (∀ L', L'.Perm L → ∀ q, reassemble L' = .ok q ↔ reassemble L = .ok q) ∧
    (¬ Message L ↔ ∃ m, reassemble L = .error (.valueError m)) := by
  refine ⟨fun q => reassemble_ok_iff_message, fun L' hp q => ?_, ?_⟩
  · simp only [reassemble_ok_iff]
    constructor
    · rintro ⟨S, hS, hnum, hjoin, id, hid⟩
      exact ⟨S, hS.trans hp, hnum, hjoin, id, fun f hf => hid f (hp.mem_iff.2 hf)⟩
    · rintro ⟨S, hS, hnum, hjoin, id, hid⟩
      exact ⟨S, hS.trans hp.symm, hnum, hjoin, id, fun f hf => hid f (hp.mem_iff.1 hf)⟩
  · cases h : reassemble L with
    | ok q => simp [(reassemble_ok_iff_message.1 h).1]
    | error e =>
      obtain ⟨m, rfl⟩ := reassemble_error h
      have hno : ¬ Message L := by
        intro hm
        have hok := reassemble_ok_iff_message.2 ⟨hm, rfl⟩
        rw [h] at hok
        cases hok
      simp [hno]

end BattLock.Transport
