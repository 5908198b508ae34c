import BattLock.Hardware.Sketch
import BattLock.Lib.Chunks
import BattLock.Lib.LittleEndian
import BattLock.Lib.Mealy

/-!
# What the reassembly holds

A reassembly stands for a total length and the bytes received of it (`Holds`): the first `len`
bytes of its buffer. A first frame starts a message (`holds_feedFirst`), a later one appends the
bytes it carries and cuts at the total length (`holds_feedNext`), whatever its sequence number
is. So after a first frame only the concatenation of what the later frames carry counts
(`holds_run`), as long as the declared length fits the buffer.
-/

namespace BattLock.Hardware

open CArray Python

/-! ## Frames -/

namespace CanFrame

/-- The sequence number is 0. -/
def IsHead (f : CanFrame) : Prop := f.data.get 0 &&& ~~~fragLastFlag = 0

/-- The last-fragment flag is set. -/
def IsLast (f : CanFrame) : Prop := f.data.get 0 &&& fragLastFlag ≠ 0

instance (f : CanFrame) : Decidable f.IsHead := inferInstanceAs (Decidable (_ = _))
instance (f : CanFrame) : Decidable f.IsLast := inferInstanceAs (Decidable (_ ≠ _))

/-- The total length in a first frame. -/
def declared (f : CanFrame) : Nat := LittleEndian.value [f.data.get 1, f.data.get 2]

/-- The data bytes of a later frame. -/
def carried (f : CanFrame) : Bytes := (f.data.toList.drop 1).take (min (f.len.toNat - 1) 7)

theorem length_carried (f : CanFrame) : f.carried.length = min (f.len.toNat - 1) 7 := by
  simp only [carried, List.length_take, List.length_drop, Vector.length_toList]
  omega

end CanFrame

namespace BattLockReassembly

/-- Feeding frame after frame. -/
def machine : Mealy BattLockReassembly CanFrame Bool where
  step r f := r.feed f.data f.len

/-- The reassembly after a sequence of frames. -/
def feedAll (r : BattLockReassembly) (frames : List CanFrame) : BattLockReassembly :=
  machine.run r frames

/-- What `feed` returns for each of a sequence of frames. -/
def answers (r : BattLockReassembly) (frames : List CanFrame) : List Bool :=
  (machine.log r frames).map Prod.snd

/-! ## One frame -/

/-- The reassembly has received `content` of a payload of `total` bytes. -/
structure Holds (r : BattLockReassembly) (total : Nat) (content : Bytes) : Prop where
  total_eq : r.total.toNat = total
  len_eq : r.len.toNat = content.length
  buffer_eq : r.buffer.toList.take content.length = content
  le : content.length ≤ total

variable {r : BattLockReassembly} {total : Nat} {content : Bytes} {f : CanFrame}
  {frames : List CanFrame}

theorem Holds.store (h : Holds r total content) (data : Vector UInt8 8) (off : Nat)
    (chunk : UInt8) (htotal : total ≤ transportMax)
    (hchunk : content.length + chunk.toNat ≤ total) (hoff : off + chunk.toNat ≤ 8) :
    Holds (r.store data off chunk) total (content ++ (data.toList.drop off).take chunk.toNat) := by
  have hlen : ((data.toList.drop off).take chunk.toNat).length = chunk.toNat := by
    simp only [List.length_take, List.length_drop, Vector.length_toList]
    omega
  have hmax : transportMax = 512 := rfl
  have hfits : r.len.toNat + chunk.toNat ≤ transportMax := by
    rw [h.len_eq]
    omega
  unfold BattLockReassembly.store
  rw [if_pos hfits]
  refine ⟨h.total_eq, ?_, ?_, ?_⟩
  · rw [List.length_append, hlen, UInt16.toNat_add, UInt8.toNat_toUInt16, h.len_eq]
    omega
  · have hbuffer : (copyBytes r.buffer r.len.toNat data off chunk.toNat).toList.take
        (r.len.toNat + chunk.toNat) =
          r.buffer.toList.take r.len.toNat ++ (data.toList.drop off).take chunk.toNat :=
      take_copyBytes hfits hoff
    rw [List.length_append, hlen, ← h.len_eq, hbuffer, h.len_eq, h.buffer_eq]
  · rw [List.length_append, hlen]
    exact hchunk

theorem holds_feedFirst (r : BattLockReassembly) (data : Vector UInt8 8)
    (htotal : LittleEndian.value [data.get 1, data.get 2] ≤ transportMax) :
    Holds (r.feedFirst data) (LittleEndian.value [data.get 1, data.get 2])
      ((data.toList.drop 3).take (LittleEndian.value [data.get 1, data.get 2])) := by
  let t : UInt16 := (data.get 1).toUInt16 ||| ((data.get 2).toUInt16 <<< 8)
  let started : BattLockReassembly := { r with len := 0, total := t, complete := false }
  let chunk : UInt8 := if t < fragFirstData.toUInt16 then t.toUInt8 else fragFirstData
  have ht : t.toNat = LittleEndian.value [data.get 1, data.get 2] := LittleEndian.toNat_word _ _
  have hchunk : chunk.toNat = min 5 t.toNat := by
    have h5 : fragFirstData.toUInt16.toNat = 5 := rfl
    have h5' : fragFirstData.toNat = 5 := rfl
    show (if t < fragFirstData.toUInt16 then t.toUInt8 else fragFirstData).toNat = _
    split <;> rename_i hlt <;> rw [UInt16.lt_iff_toNat_lt] at hlt
    · rw [UInt16.toNat_toUInt8]
      omega
    · omega
  have hstarted : Holds started (LittleEndian.value [data.get 1, data.get 2]) [] :=
    ⟨ht, rfl, rfl, Nat.zero_le _⟩
  have hstore := hstarted.store data fragHeadBytes chunk htotal
    (by rw [hchunk, ht, List.length_nil]; omega) (by rw [hchunk]; simp only [fragHeadBytes]; omega)
  have htake : (data.toList.drop 3).take chunk.toNat =
      (data.toList.drop 3).take (LittleEndian.value [data.get 1, data.get 2]) := by
    have h5 : (data.toList.drop 3).length = 5 := by simp
    rw [← ht, hchunk, ← List.take_take, List.take_of_length_le]
    rw [List.length_take]
    omega
  rw [List.nil_append, show fragHeadBytes = 3 from rfl, htake] at hstore
  exact hstore

theorem toNat_payload (dlc : UInt8) :
    (if 1 < dlc then dlc - 1 else 0 : UInt8).toNat = dlc.toNat - 1 := by
  have h1 : (1 : UInt8).toNat = 1 := rfl
  have h0 : (0 : UInt8).toNat = 0 := rfl
  split <;> rename_i hlt <;> rw [UInt8.lt_iff_toNat_lt] at hlt
  · rw [UInt8.toNat_sub_of_le _ _ (by rw [UInt8.le_iff_toNat_le]; omega)]
    rfl
  · omega

/-- At most seven bytes of a later frame are data. -/
theorem toNat_capped (chunk : UInt8) :
    (if fragDataBytes < chunk then fragDataBytes else chunk).toNat = min chunk.toNat 7 := by
  have h7 : fragDataBytes.toNat = 7 := rfl
  split <;> rename_i hlt <;> rw [UInt8.lt_iff_toNat_lt] at hlt <;> omega

theorem Holds.feedNext (h : Holds r total content) (htotal : total ≤ transportMax) :
    Holds (r.feedNext f.data f.len) total ((content ++ f.carried).take total) := by
  have hmax : transportMax = 512 := rfl
  let chunk₁ : UInt8 := if 1 < f.len then f.len - 1 else 0
  let chunk₂ : UInt8 := if fragDataBytes < chunk₁ then fragDataBytes else chunk₁
  let chunk : UInt8 :=
    if r.total.toNat < r.len.toNat + chunk₂.toNat then (r.total - r.len).toUInt8 else chunk₂
  have h₂ : chunk₂.toNat = min (f.len.toNat - 1) 7 := by
    rw [← toNat_payload]
    exact toNat_capped chunk₁
  have hchunk : chunk.toNat = min (min (f.len.toNat - 1) 7) (total - content.length) := by
    have hle := h.le
    have hlen := h.len_eq
    have ht := h.total_eq
    show (if r.total.toNat < r.len.toNat + chunk₂.toNat then (r.total - r.len).toUInt8
      else chunk₂).toNat = _
    split
    · rw [UInt16.toNat_toUInt8, UInt16.toNat_sub_of_le _ _ (by rw [UInt16.le_iff_toNat_le]; omega)]
      omega
    · omega
  have hstore := h.store f.data 1 chunk htotal
    (by have := h.le; omega) (by omega)
  have htake : content ++ (f.data.toList.drop 1).take chunk.toNat =
      (content ++ f.carried).take total := by
    rw [List.take_append, List.take_of_length_le h.le, CanFrame.carried, List.take_take, hchunk,
      Nat.min_comm (total - content.length)]
  rw [htake] at hstore
  exact hstore

theorem Holds.complete (h : Holds r total content) (b : Bool) :
    Holds { r with complete := b } total content := ⟨h.total_eq, h.len_eq, h.buffer_eq, h.le⟩

theorem feed_snd : (r.feed f.data f.len).2 = decide f.IsLast := by
  unfold BattLockReassembly.feed CanFrame.IsLast
  dsimp only
  split <;> simp_all

/-- What the branch for a frame leaves is what `feed` leaves. -/
theorem Holds.fed
    (h : Holds (if f.IsHead then r.feedFirst f.data else r.feedNext f.data f.len) total content) :
    Holds (r.feed f.data f.len).1 total content := by
  unfold BattLockReassembly.feed
  dsimp only
  split
  · exact h.complete true
  · exact h

theorem holds_feed_head (hf : f.IsHead) (htotal : f.declared ≤ transportMax) :
    Holds (r.feed f.data f.len).1 f.declared ((f.data.toList.drop 3).take f.declared) := by
  have h := holds_feedFirst r f.data htotal
  exact Holds.fed (by rwa [if_pos hf])

theorem Holds.feed (h : Holds r total content) (htotal : total ≤ transportMax)
    (hf : ¬ f.IsHead) :
    Holds (r.feed f.data f.len).1 total ((content ++ f.carried).take total) := by
  have h' := h.feedNext (f := f) htotal
  exact Holds.fed (by rwa [if_neg hf])

/-! ## Sequences of frames -/

@[simp] theorem feedAll_nil : feedAll r [] = r := rfl
@[simp] theorem feedAll_cons : feedAll r (f :: frames) = feedAll (r.feed f.data f.len).1 frames :=
  rfl

theorem feedAll_append (r : BattLockReassembly) (l₁ l₂ : List CanFrame) :
    feedAll r (l₁ ++ l₂) = feedAll (feedAll r l₁) l₂ := machine.run_append r l₁ l₂

theorem feedAll_concat (r : BattLockReassembly) (l : List CanFrame) (f : CanFrame) :
    feedAll r (l ++ [f]) = ((feedAll r l).feed f.data f.len).1 := feedAll_append r l [f]

theorem answers_eq (r : BattLockReassembly) (frames : List CanFrame) :
    answers r frames = frames.map fun f => decide f.IsLast := by
  induction frames generalizing r with
  | nil => rfl
  | cons f frames ih =>
    have hrest := ih (r.feed f.data f.len).1
    rw [List.map_cons, ← hrest, ← feed_snd (r := r)]
    rfl

/-- **After later frames** the reassembly holds what they carried, appended to what was there and
cut at the total length. -/
theorem Holds.feedAll (h : Holds r total content) (htotal : total ≤ transportMax)
    (hframes : ∀ f ∈ frames, ¬ f.IsHead) :
    Holds (feedAll r frames) total ((content ++ (frames.map CanFrame.carried).flatten).take total)
    := by
  -- frame by frame the cut is made each time
  have hfold : Holds (BattLockReassembly.feedAll r frames) total
      ((frames.map CanFrame.carried).foldl (fun acc d => (acc ++ d).take total) content) := by
    induction frames generalizing r content with
    | nil => exact h
    | cons f frames ih =>
      have hf := h.feed (f := f) htotal (hframes f List.mem_cons_self)
      exact ih hf fun g hg => hframes g (List.mem_cons_of_mem _ hg)
  rw [Chunks.foldl_append_take _ _ _ h.le] at hfold
  exact hfold

/-- **A message**: a first frame and the later frames after it, from any reassembly. -/
theorem holds_message (r : BattLockReassembly) (hf : f.IsHead) (htotal : f.declared ≤ transportMax)
    (hframes : ∀ g ∈ frames, ¬ g.IsHead) :
    Holds (BattLockReassembly.feedAll r (f :: frames)) f.declared
      ((f.data.toList.drop 3 ++ (frames.map CanFrame.carried).flatten).take f.declared) := by
  have h := (holds_feed_head (r := r) hf htotal).feedAll htotal hframes
  have hcut : ((f.data.toList.drop 3).take f.declared ++
        (frames.map CanFrame.carried).flatten).take f.declared =
      (f.data.toList.drop 3 ++ (frames.map CanFrame.carried).flatten).take f.declared := by
    rw [List.take_append, List.take_append, List.take_take, Nat.min_self, List.length_take]
    rcases Nat.le_total (f.data.toList.drop 3).length f.declared with hle | hle
    · rw [Nat.min_eq_right hle]
    · rw [Nat.min_eq_left hle, Nat.sub_self, Nat.sub_eq_zero_of_le hle]
  rw [feedAll_cons, ← hcut]
  exact h

end BattLockReassembly

end BattLock.Hardware
