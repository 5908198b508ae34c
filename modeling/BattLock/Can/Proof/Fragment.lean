import BattLock.Can.Transport
import Mathlib.Algebra.Order.Floor.Div
import Mathlib.Data.List.Range

/-!
# The frames of a payload

`fragment_eq`: a payload of at most `maxPayload` bytes is split into `frameCount` frames, the
`i`-th of them `frameAt`: its sequence number (with the total length in frame 0) and the
payload's bytes `7 i - 2 .. 7 i + 5`. The loop's offset and sequence number run along that
arithmetic progression (`fragmentLoop_eq`), and the bound on the payload is what keeps the
sequence number in a byte (`frameCount_le`). `fragment_spec` says the same without the
progression: what the frames are, and that only payloads above the limit are refused.
-/

namespace BattLock.Transport

open Python

/-- Number of frames of a payload of `n` bytes. -/
def frameCount (n : Nat) : Nat := 1 + (n - 5 + 6) / 7

/-- The payload bytes of frame `i`: five in frame 0, then seven a frame. -/
def chunk (p : Bytes) (i : Nat) : Bytes := slice p (7 * i - 2) (7 * i + 5)

/-- The bytes before the payload's in frame `i` of a payload of `n` bytes. -/
def frameHeader (n i : Nat) : Bytes :=
  if i = 0 then [0, UInt8.ofNat n, UInt8.ofNat (n / 256)] else [UInt8.ofNat i]

/-- Frame `i` of a payload. -/
def frameAt (id : Int) (p : Bytes) (i : Nat) : CANMessage :=
  ⟨id, frameHeader p.length i ++ chunk p i⟩

/-! ## Arithmetic of the frame count -/

theorem frameCount_pred (n : Nat) : frameCount n - 1 + 1 = frameCount n := by
  unfold frameCount
  omega

theorem range_frameCount (n : Nat) :
    List.range (frameCount n) = 0 :: List.range' 1 (frameCount n - 1) := by
  rw [List.range_eq_range', ← frameCount_pred n, List.range'_succ, Nat.add_sub_cancel]

theorem lt_frameCount {n i : Nat} (hi : 1 ≤ i) : i < frameCount n ↔ 7 * i - 2 < n := by
  unfold frameCount
  omega

theorem le_of_frameCount_le {n i : Nat} (h : frameCount n ≤ i) : n ≤ 7 * i - 2 := by
  unfold frameCount at h
  omega

theorem frameCount_le {n : Nat} (h : n ≤ maxPayload) : frameCount n ≤ 256 := by
  simp only [maxPayload, firstFramePayload, maxSequence, contFramePayload] at h
  unfold frameCount
  omega

/-! ## The loop -/

theorem bytesOf_singleton {i : Nat} (h : i < 256) : bytesOf [i] = .ok [UInt8.ofNat i] := by
  simp [bytesOf, h]

/-- The loop of `fragment` at sequence number `i` emits the frames from `i` on. -/
theorem fragmentLoop_eq (id : Int) {p : Bytes} (hp : p.length ≤ maxPayload) {i : Nat}
    (hi : 1 ≤ i) : fragmentLoop id p (7 * i - 2) i =
      .ok ((List.range' i (frameCount p.length - i)).map (frameAt id p)) := by
  -- on the number of frames still to come
  induction hn : frameCount p.length - i generalizing i with
  | zero =>
    have : ¬ 7 * i - 2 < p.length := by rw [← lt_frameCount hi]; omega
    rw [fragmentLoop, if_neg this]
    rfl
  | succ n ih =>
    have hlt : i < frameCount p.length := by omega
    have h256 : i < 256 := Nat.lt_of_lt_of_le hlt (frameCount_le hp)
    have hnext : 7 * i - 2 + contFramePayload = 7 * (i + 1) - 2 := by
      simp only [contFramePayload]; omega
    have hend : 7 * (i + 1) - 2 = 7 * i + 5 := by omega
    rw [fragmentLoop, if_pos ((lt_frameCount hi).1 hlt), bytesOf_singleton h256, hnext,
      ih (by omega) (by omega), List.range'_succ, List.map_cons]
    have hframe :
        frameAt id p i = ⟨id, [UInt8.ofNat i] ++ slice p (7 * i - 2) (7 * (i + 1) - 2)⟩ := by
      rw [frameAt, frameHeader, if_neg (by omega), chunk, hend]
    rw [hframe]
    rfl

theorem ofNat_and_255 (n : Nat) : UInt8.ofNat (n &&& 0xFF) = UInt8.ofNat n := by
  rw [show 0xFF = 2 ^ 8 - 1 by rfl, Nat.and_two_pow_sub_one_eq_mod]
  exact UInt8.ofNat_mod_size

/-- **The frames of a payload.** -/
theorem fragment_eq (id : Int) {p : Bytes} (hp : p.length ≤ maxPayload) :
    fragment id p = .ok ((List.range (frameCount p.length)).map (frameAt id p)) := by
  have hheader : bytesOf [0, p.length &&& 0xFF, (p.length >>> 8) &&& 0xFF] =
      .ok (frameHeader p.length 0) := by
    have h1 : p.length &&& 0xFF < 256 := Nat.lt_succ_of_le Nat.and_le_right
    have h2 : p.length / 2 ^ 8 &&& 0xFF < 256 := Nat.lt_succ_of_le Nat.and_le_right
    rw [Nat.shiftRight_eq_div_pow]
    simp only [bytesOf, Nat.zero_lt_succ, h1, h2, ↓reduceIte, ok_bind, pure_eq_ok, ofNat_and_255]
    rfl
  have hloop : fragmentLoop id p firstFramePayload 1 = _ := fragmentLoop_eq id hp (Nat.le_refl 1)
  unfold fragment
  dsimp only
  rw [if_neg (Nat.not_lt.2 hp), hheader, hloop, range_frameCount, List.map_cons]
  rfl

/-! ## The chunks -/

theorem length_chunk (p : Bytes) (i : Nat) :
    (chunk p i).length = min (7 * i + 5 - (7 * i - 2)) (p.length - (7 * i - 2)) := by
  simp [chunk, slice]

theorem flatMap_chunk (p : Bytes) : ∀ n, (List.range n).flatMap (chunk p) = p.take (7 * n - 2)
  | 0 => by simp
  | n + 1 => by
    rw [List.range_succ, List.flatMap_append, flatMap_chunk p n, List.flatMap_singleton, chunk,
      slice, show 7 * (n + 1) - 2 = (7 * n - 2) + (7 * n + 5 - (7 * n - 2)) by omega,
      List.take_add]

theorem length_frameAt (id : Int) (p : Bytes) (i : Nat) :
    (frameAt id p i).data.length = (if i = 0 then 3 else 1) + (chunk p i).length := by
  rw [frameAt, List.length_append, frameHeader]
  split
  · rfl
  · rfl

theorem length_frameAt_of_lt (id : Int) {p : Bytes} {i : Nat} (h : i + 1 < frameCount p.length) :
    (frameAt id p i).data.length = 8 := by
  have hlt := (lt_frameCount (Nat.succ_le_succ (Nat.zero_le i))).1 h
  rw [length_frameAt, length_chunk]
  by_cases hi : i = 0
  · rw [if_pos hi]
    omega
  · rw [if_neg hi]
    omega

theorem length_frameAt_le (id : Int) (p : Bytes) (i : Nat) :
    (frameAt id p i).data.length ≤ 8 := by
  rw [length_frameAt, length_chunk]
  by_cases hi : i = 0
  · rw [if_pos hi]
    omega
  · rw [if_neg hi]
    omega

theorem drop_frameAt (id : Int) (p : Bytes) {i : Nat} (hi : i ≠ 0) :
    (frameAt id p i).data.drop 1 = chunk p i := by
  rw [frameAt, frameHeader, if_neg hi]
  rfl

/-! ## What `fragment` returns -/

/-- The frames a payload travels in. -/
structure Fragments (id : Int) (p : Bytes) (frames : List CANMessage) : Prop where
  count : frames.length = 1 + (p.length - 5) ⌈/⌉ 7
  ids : ∀ f ∈ frames, f.arbitrationId = id
  /-- The frames are numbered from 0, and every number is a byte. -/
  numbers : ∀ i f, frames[i]? = some f → i ≤ 255 ∧ f.data.head? = some (UInt8.ofNat i)
  short : ∀ f ∈ frames, f.data.length ≤ 8
  full : ∀ f ∈ frames.dropLast, f.data.length = 8
  /-- The first frame declares the payload's length; the chunks are the payload. -/
  content : ∃ f rest lo hi chunk, frames = f :: rest ∧ f.data = 0 :: lo :: hi :: chunk ∧
    lo.toNat + 256 * hi.toNat = p.length ∧ chunk ++ rest.flatMap (fun g => g.data.drop 1) = p

theorem fragments_range (id : Int) {p : Bytes} (hp : p.length ≤ maxPayload) :
    Fragments id p ((List.range (frameCount p.length)).map (frameAt id p)) := by
  have h256 := frameCount_le hp
  constructor
  case count =>
    rw [List.length_map, List.length_range]
    rfl
  case ids =>
    intro f hf
    obtain ⟨i, -, rfl⟩ := List.mem_map.1 hf
    rfl
  case numbers =>
    intro i f hf
    rw [List.getElem?_map, Option.map_eq_some_iff] at hf
    obtain ⟨j, hj, rfl⟩ := hf
    obtain ⟨hlt, rfl⟩ := List.getElem?_eq_some_iff.1 hj
    rw [List.length_range] at hlt
    rw [List.getElem_range]
    refine ⟨by omega, ?_⟩
    rw [frameAt, frameHeader]
    split
    · rename_i h0
      rw [h0]
      rfl
    · rfl
  case short =>
    intro f hf
    obtain ⟨i, -, rfl⟩ := List.mem_map.1 hf
    exact length_frameAt_le id p i
  case full =>
    intro f hf
    rw [← frameCount_pred, List.range_succ, List.map_append, List.map_singleton,
      List.dropLast_concat] at hf
    obtain ⟨i, hi, rfl⟩ := List.mem_map.1 hf
    have := List.mem_range.1 hi
    exact length_frameAt_of_lt id (by omega)
  case content =>
    rw [range_frameCount, List.map_cons]
    refine ⟨_, _, UInt8.ofNat p.length, UInt8.ofNat (p.length / 256), chunk p 0, rfl, rfl, ?_, ?_⟩
    · simp only [maxPayload, firstFramePayload, maxSequence, contFramePayload] at hp
      rw [UInt8.toNat_ofNat', UInt8.toNat_ofNat']
      omega
    · -- the chunks of all frames are the payload's first bytes, and there are no others
      have hrest : ∀ i ∈ List.range' 1 (frameCount p.length - 1),
          (frameAt id p i).data.drop 1 = chunk p i := by
        intro i hi
        have := List.mem_range'_1.1 hi
        exact drop_frameAt id p (by omega)
      rw [List.flatMap_map, List.flatMap_congr hrest, ← List.flatMap_cons, ← range_frameCount,
        flatMap_chunk, List.take_of_length_le (le_of_frameCount_le (Nat.le_refl _))]

/-- **What `fragment` does**: it raises `ValueError` on a payload above the limit, and splits any
other payload. -/
theorem fragment_spec (id : Int) (p : Bytes) :
    (1790 < p.length ∧ ∃ m, fragment id p = .error (.valueError m)) ∨
      (p.length ≤ 1790 ∧ ∃ frames, fragment id p = .ok frames ∧ Fragments id p frames) := by
  rcases Nat.lt_or_ge 1790 p.length with hlt | hle
  · refine .inl ⟨hlt, ?_⟩
    rw [fragment]
    exact ⟨_, if_pos hlt⟩
  · exact .inr ⟨hle, _, fragment_eq id hle, fragments_range id hle⟩

end BattLock.Transport
