import BattLock.Hardware.Proof.Reassembly
import BattLock.Hardware.Vehicle
import BattLock.Lib.Checked

/-!
# The reassembly stays within its buffer

`feedChecked` is `battlock_reassembly_feed` in checked arithmetic: it fails where an index is
outside of its array, a difference is negative, a sum is too large for an `int`, or a value does
not fit the variable it is assigned to. `Bounded` is what keeps it from failing: from a bounded
reassembly it succeeds with what `feed` computes, which is bounded again (`feedChecked_eq`). So no
sequence of frames leaves the buffer (`feed_in_bounds`), and none that the vehicle's sketch receives
does (`Vehicle.bounded_run`).
-/

namespace BattLock.Hardware

open CArray

namespace BattLockReassembly

/-! ## Feeding with checks -/

/-- The copy both branches end with. -/
def storeChecked (r : BattLockReassembly) (data : Vector UInt8 8) (off : Nat) (chunk : UInt8) :
    Option BattLockReassembly := do
  let stop ← Checked.add r.len.toNat chunk.toNat
  if stop ≤ transportMax then
    let buffer ← Checked.copy r.buffer r.len.toNat data off chunk.toNat
    let len ← Checked.narrow16 (← Checked.add r.len.toNat chunk.toNat)
    return { r with buffer, len }
  else return r

/-- The branch for sequence number 0. -/
def feedFirstChecked (r : BattLockReassembly) (data : Vector UInt8 8) :
    Option BattLockReassembly := do
  let lo ← Checked.load data 1
  let hi ← Checked.load data 2
  let total ← Checked.narrow16 (lo.toNat ||| hi.toNat <<< 8)
  let chunk ←
    (if total.toNat < fragFirstData.toNat then Checked.narrow8 total.toNat else some fragFirstData)
  storeChecked { r with len := 0, total, complete := false } data fragHeadBytes chunk

/-- The branch for the other sequence numbers. -/
def feedNextChecked (r : BattLockReassembly) (data : Vector UInt8 8) (dlc : UInt8) :
    Option BattLockReassembly := do
  let payload ← (if 1 < dlc.toNat then Checked.sub dlc.toNat 1 else some 0)
  let chunk ← Checked.narrow8 payload
  let chunk := if fragDataBytes.toNat < chunk.toNat then fragDataBytes else chunk
  let stop ← Checked.add r.len.toNat chunk.toNat
  let chunk ←
    (if r.total.toNat < stop then Checked.sub r.total.toNat r.len.toNat >>= Checked.narrow8
    else some chunk)
  r.storeChecked data 1 chunk

/-- `battlock_reassembly_feed` with every operation checked. -/
def feedChecked (r : BattLockReassembly) (data : Vector UInt8 8) (dlc : UInt8) :
    Option (BattLockReassembly × Bool) := do
  let first ← Checked.load data 0
  let seq := first &&& ~~~fragLastFlag
  let r ← (if seq = 0 then r.feedFirstChecked data else r.feedNextChecked data dlc)
  return if first &&& fragLastFlag ≠ 0 then ({ r with complete := true }, true) else (r, false)

/-! ## The invariant -/

/-- No more is stored than was declared, and than there is room for. -/
structure Bounded (r : BattLockReassembly) : Prop where
  le_total : r.len.toNat ≤ r.total.toNat
  le_max : r.len.toNat ≤ transportMax

variable {r : BattLockReassembly}

theorem bounded_init (r : BattLockReassembly) : r.init.Bounded := ⟨Nat.le_refl 0, Nat.zero_le _⟩

/-- What is common to the branches: a chunk that the payload still lacks and the frame has. -/
theorem storeChecked_eq (h : r.Bounded) (data : Vector UInt8 8) {off : Nat} {chunk : UInt8}
    (hchunk : r.len.toNat + chunk.toNat ≤ r.total.toNat) (hoff : off + chunk.toNat ≤ 8) :
    r.storeChecked data off chunk = some (r.store data off chunk) ∧
      (r.store data off chunk).Bounded := by
  have hmax : transportMax = 512 := rfl
  have hint : Checked.intMax = 32767 := rfl
  have hle := h.le_max
  have hbyte := chunk.toNat_lt
  have hadd : Checked.add r.len.toNat chunk.toNat = some (r.len.toNat + chunk.toNat) :=
    Checked.add_eq (by omega)
  unfold storeChecked store
  rw [hadd]
  by_cases hfits : r.len.toNat + chunk.toNat ≤ transportMax
  · have hcopy : Checked.copy r.buffer r.len.toNat data off chunk.toNat =
        some (CArray.copyBytes r.buffer r.len.toNat data off chunk.toNat) :=
      Checked.copy_eq (by omega) (by omega) (by omega) hfits hoff
    have htoNat : (r.len + chunk.toUInt16).toNat = r.len.toNat + chunk.toNat := by
      rw [UInt16.toNat_add, UInt8.toNat_toUInt16, Nat.mod_eq_of_lt (by omega)]
    have hlen : UInt16.ofNat (r.len.toNat + chunk.toNat) = r.len + chunk.toUInt16 := by
      rw [← htoNat, UInt16.ofNat_toNat]
    simp only [Option.bind_eq_bind, Option.bind_some, if_pos hfits, hcopy,
      Checked.narrow16_eq (show r.len.toNat + chunk.toNat < 65536 by omega), hlen,
      Option.pure_def]
    refine ⟨trivial, ?_, ?_⟩
    · rw [htoNat]
      exact hchunk
    · rw [htoNat]
      exact hfits
  · simp only [Option.bind_eq_bind, Option.bind_some, if_neg hfits, Option.pure_def]
    exact ⟨trivial, h⟩

theorem narrow16_word (lo hi : UInt8) : Checked.narrow16 (lo.toNat ||| hi.toNat <<< 8) =
    some (lo.toUInt16 ||| (hi.toUInt16 <<< 8)) := by
  have hhi : hi.toNat <<< 8 < 2 ^ 16 := by
    rw [Nat.shiftLeft_eq]
    have hbyte := hi.toNat_lt
    omega
  have hword : (lo.toUInt16 ||| (hi.toUInt16 <<< 8)).toNat = lo.toNat ||| hi.toNat <<< 8 := by
    rw [UInt16.toNat_or, UInt16.toNat_shiftLeft, UInt8.toNat_toUInt16, UInt8.toNat_toUInt16]
    exact congrArg (lo.toNat ||| ·) (Nat.mod_eq_of_lt hhi)
  rw [← hword, Checked.narrow16_eq (UInt16.toNat_lt _), UInt16.ofNat_toNat]

theorem feedFirstChecked_eq (r : BattLockReassembly) (data : Vector UInt8 8) :
    r.feedFirstChecked data = some (r.feedFirst data) ∧ (r.feedFirst data).Bounded := by
  have hlo : Checked.load data 1 = some (data.get 1) := Checked.load_eq data 1
  have hhi : Checked.load data 2 = some (data.get 2) := Checked.load_eq data 2
  have h5 : fragFirstData.toNat = 5 := rfl
  let total : UInt16 := (data.get 1).toUInt16 ||| ((data.get 2).toUInt16 <<< 8)
  let started : BattLockReassembly := { r with len := 0, total, complete := false }
  have hstarted : started.Bounded := ⟨Nat.zero_le _, Nat.zero_le _⟩
  have hlen : started.len.toNat = 0 := rfl
  have htotal : started.total = total := rfl
  unfold feedFirstChecked feedFirst
  rw [hlo, hhi]
  simp only [Option.bind_eq_bind, Option.bind_some, narrow16_word]
  by_cases hshort : total.toNat < fragFirstData.toNat
  · have hchunk : total.toUInt8.toNat = total.toNat := by
      rw [UInt16.toNat_toUInt8, Nat.mod_eq_of_lt (by omega)]
    have hnarrow : Checked.narrow8 total.toNat = some total.toUInt8 := by
      rw [← hchunk, Checked.narrow8_toNat]
    have hlt : total < fragFirstData.toUInt16 := UInt16.lt_iff_toNat_lt.2 hshort
    rw [if_pos hshort, if_pos hlt, hnarrow]
    exact storeChecked_eq hstarted data (by rw [hlen, hchunk, Nat.zero_add])
      (by simp only [fragHeadBytes]; omega)
  · have hle : ¬ total < fragFirstData.toUInt16 := fun hlt =>
      hshort (UInt16.lt_iff_toNat_lt.1 hlt)
    rw [if_neg hshort, if_neg hle]
    exact storeChecked_eq hstarted data (by rw [hlen, htotal]; omega)
      (by simp only [fragHeadBytes]; omega)

theorem feedNextChecked_eq (h : r.Bounded) (data : Vector UInt8 8) (dlc : UInt8) :
    r.feedNextChecked data dlc = some (r.feedNext data dlc) ∧ (r.feedNext data dlc).Bounded := by
  have hmax : transportMax = 512 := rfl
  have hint : Checked.intMax = 32767 := rfl
  have hle := h.le_max
  have htotal := h.le_total
  let payload : UInt8 := if 1 < dlc then dlc - 1 else 0
  let chunk : UInt8 := if fragDataBytes < payload then fragDataBytes else payload
  have hpayload : (if 1 < dlc.toNat then Checked.sub dlc.toNat 1 else some 0) =
      some payload.toNat := by
    rw [toNat_payload]
    by_cases hdlc : 1 < dlc.toNat
    · rw [if_pos hdlc, Checked.sub_eq (Nat.le_of_lt hdlc)]
    · rw [if_neg hdlc, Nat.sub_eq_zero_of_le (Nat.le_of_not_lt hdlc)]
  have hchunk : chunk.toNat ≤ 7 := by
    rw [toNat_capped payload]
    exact Nat.min_le_right _ _
  have hoff : 1 + chunk.toNat ≤ 8 := by omega
  have hstop : Checked.add r.len.toNat chunk.toNat = some (r.len.toNat + chunk.toNat) :=
    Checked.add_eq (by omega)
  unfold feedNextChecked feedNext
  rw [hpayload]
  simp only [Option.bind_eq_bind, Option.bind_some, Checked.narrow8_toNat, ← UInt8.lt_iff_toNat_lt]
  rw [hstop, Option.bind_some]
  by_cases hcut : r.total.toNat < r.len.toNat + chunk.toNat
  · -- what the payload still lacks is less than a chunk
    have hrest : (r.total - r.len).toUInt8.toNat = r.total.toNat - r.len.toNat := by
      rw [UInt16.toNat_toUInt8, UInt16.toNat_sub_of_le _ _ (UInt16.le_iff_toNat_le.2 htotal),
        Nat.mod_eq_of_lt (by omega)]
    have hsub : Checked.sub r.total.toNat r.len.toNat =
        some (r.total - r.len).toUInt8.toNat := by
      rw [hrest, Checked.sub_eq htotal]
    rw [if_pos hcut, if_pos hcut, hsub, Option.bind_some, Checked.narrow8_toNat, Option.bind_some]
    exact storeChecked_eq h data (by omega) (by omega)
  · rw [if_neg hcut, if_neg hcut, Option.bind_some]
    exact storeChecked_eq h data (Nat.le_of_not_lt hcut) hoff

/-- **One frame**: nothing wraps around, no index leaves its array, and the reassembly stays
bounded. -/
theorem feedChecked_eq (h : r.Bounded) (data : Vector UInt8 8) (dlc : UInt8) :
    r.feedChecked data dlc = some (r.feed data dlc) ∧ (r.feed data dlc).1.Bounded := by
  have hload : Checked.load data 0 = some (data.get 0) := Checked.load_eq data 0
  let seq := data.get 0 &&& ~~~fragLastFlag
  let fed := if seq = 0 then r.feedFirst data else r.feedNext data dlc
  have hfed : (if seq = 0 then r.feedFirstChecked data else r.feedNextChecked data dlc) =
      some fed ∧ fed.Bounded := by
    by_cases hseq : seq = 0
    · simp only [fed, if_pos hseq]
      exact feedFirstChecked_eq r data
    · simp only [fed, if_neg hseq]
      exact feedNextChecked_eq h data dlc
  constructor
  · unfold feedChecked feed
    rw [hload]
    simp only [Option.bind_eq_bind, Option.bind_some]
    rw [hfed.1]
    rfl
  · show (if data.get 0 &&& fragLastFlag ≠ 0 then ({ fed with complete := true }, true)
      else (fed, false)).1.Bounded
    split
    · exact ⟨hfed.2.le_total, hfed.2.le_max⟩
    · exact hfed.2

/-! ## Runs -/

/-- A call on a reassembly. -/
inductive Call
  | init
  | feed (data : Vector UInt8 8) (dlc : UInt8)

/-- The reassembly under calls of its two functions. -/
def calls : Mealy BattLockReassembly Call (Option Bool) where
  step r
    | .init => (r.init, none)
    | .feed data dlc => ((r.feed data dlc).1, some (r.feed data dlc).2)

theorem Bounded.step (h : r.Bounded) (call : Call) : (calls.step r call).1.Bounded := by
  cases call with
  | init => exact bounded_init r
  | feed data dlc => exact (feedChecked_eq h data dlc).2

theorem Bounded.run (h : r.Bounded) (cs : List Call) : (calls.run r cs).Bounded := by
  induction cs generalizing r with
  | nil => exact h
  | cons call cs ih => exact ih (h.step call)

/-- The invariant holds, and the next frame, whatever is in it, is fed without a wrap-around and
without an index outside of its array. -/
structure InBounds (r : BattLockReassembly) : Prop where
  bounded : r.Bounded
  checked : ∀ data dlc, r.feedChecked data dlc = some (r.feed data dlc)

/-- **The reassembly stays within its buffer**, after every sequence of calls from a reassembly
of zeros and from one that `battlock_reassembly_init` leaves. -/
theorem feed_in_bounds (cs : List Call) :
    (calls.run {} cs).InBounds ∧ ∀ r : BattLockReassembly, (calls.run r.init cs).InBounds := by
  have hrun : ∀ r : BattLockReassembly, r.Bounded → (calls.run r cs).InBounds := fun r h =>
    ⟨h.run cs, fun data dlc => (feedChecked_eq (h.run cs) data dlc).1⟩
  exact ⟨hrun {} (bounded_init {}), fun r => hrun r.init (bounded_init r)⟩

end BattLockReassembly

/-! ## The sketch -/

namespace Vehicle

/-- Both reassemblies of the sketch are bounded. -/
structure Bounded (v : Vehicle) : Prop where
  cert : v.certReass.Bounded
  sig : v.sigReass.Bounded

variable (C : Crypto) (rootCaPublicKey : Vector UInt8 65) {v : Vehicle}

theorem bounded_certificateCase (h : v.Bounded) (frame : CanFrame) (input : VehicleInput) :
    (v.certificateCase C rootCaPublicKey frame input).1.Bounded := by
  have hfed := (BattLockReassembly.feedChecked_eq h.cert frame.data frame.len).2
  unfold certificateCase onCertificate
  dsimp only
  split
  · split
    · split
      · exact ⟨BattLockReassembly.bounded_init _, h.sig⟩
      · exact ⟨BattLockReassembly.bounded_init _, h.sig⟩
    · exact ⟨BattLockReassembly.bounded_init _, h.sig⟩
  · exact ⟨hfed, h.sig⟩

theorem bounded_signatureCase (h : v.Bounded) (frame : CanFrame) (input : VehicleInput) :
    (v.signatureCase C frame input).1.Bounded := by
  have hfed := (BattLockReassembly.feedChecked_eq h.sig frame.data frame.len).2
  unfold signatureCase onSignature
  dsimp only
  split
  · split
    · split
      · exact ⟨h.cert, BattLockReassembly.bounded_init _⟩
      · exact ⟨h.cert, BattLockReassembly.bounded_init _⟩
    · exact ⟨h.cert, BattLockReassembly.bounded_init _⟩
  · exact ⟨h.cert, hfed⟩

theorem bounded_dispatch (h : v.Bounded) (frame : CanFrame) (input : VehicleInput) :
    (v.dispatch C rootCaPublicKey frame input).1.Bounded := by
  unfold dispatch
  split_ifs
  · exact ⟨h.cert, h.sig⟩
  · exact bounded_certificateCase C rootCaPublicKey h frame input
  · exact bounded_signatureCase C h frame input
  · exact h

theorem bounded_handleStatusB (h : v.Bounded) (data : Vector UInt8 8) :
    (v.handleStatusB data).1.Bounded := by
  unfold handleStatusB
  dsimp only
  split_ifs
  · exact h
  · exact h
  · exact ⟨h.cert, h.sig⟩

theorem bounded_loop (h : v.Bounded) (input : VehicleInput) :
    (v.loop C rootCaPublicKey input).1.Bounded := by
  unfold loop
  split
  · exact h
  · rename_i frame _
    split_ifs
    · exact ⟨h.cert, h.sig⟩
    · have hstatus := bounded_handleStatusB h frame.data
      exact ⟨hstatus.cert, hstatus.sig⟩
    · exact h
    · exact bounded_dispatch C rootCaPublicKey h frame input

/-- **Every run of the sketch** keeps both reassemblies bounded. -/
theorem bounded_run (inputs : List VehicleInput) :
    ((machine C rootCaPublicKey).run {} inputs).Bounded := by
  induction inputs using List.reverseRecOn with
  | nil => exact ⟨BattLockReassembly.bounded_init {}, BattLockReassembly.bounded_init {}⟩
  | append_singleton inputs input ih =>
    rw [Mealy.run_append]
    exact bounded_loop C rootCaPublicKey ih input

end Vehicle

end BattLock.Hardware
