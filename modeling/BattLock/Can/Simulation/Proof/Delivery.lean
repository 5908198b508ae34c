import BattLock.Can.Simulation.BatteryNode
import BattLock.Can.Simulation.Proof.Telemetry
import BattLock.Crypto.Proof.Binding

/-!
# Delivery of an honest stream

The battery numbers its statuses `1, 2, ..` (`sends_eq`), and every one of them passes the content
checks (`not_unsafe_status`). So of any deliveries of its frames, delayed, repeated or reordered
as it may be, the vehicle reports `VALID` exactly those with a new greatest counter
(`delivered_valid_iff`).
-/

namespace BattLock

open Python Python.Struct

variable {π PK : Type}

/-! ## The sender -/

namespace BatteryNode

theorem sends_eq : ∀ (n : Nat) (self : BatteryNode π),
    self.sends n =
      (List.range n).map fun k => encodeStatus (status (self.counter.counter + (k + 1 : Nat)))
  | 0, _ => rfl
  | n + 1, self => by
    have hstep : self.sends (n + 1) =
        encodeStatus (status (self.counter.counter + 1)) :: self.sendStatus.1.sends n := rfl
    have hcounter : self.sendStatus.1.counter.counter = self.counter.counter + 1 := rfl
    rw [hstep, sends_eq n, hcounter, List.range_succ_eq_map, List.map_cons, List.map_map]
    refine congrArg _ (List.map_congr_left fun k _ => ?_)
    have hk : self.counter.counter + 1 + (k + 1 : Nat) =
        self.counter.counter + (k + 1 + 1 : Nat) := by
      push_cast; omega
    rw [Function.comp_apply, hk]

theorem encodeStatus_status {c : Int} (h0 : 0 ≤ c) (hlt : c < 2 ^ 32) :
    ∃ m, encodeStatus (status c) = .ok m := by
  have hc : packUInt 4 (status c).counter = .ok (LittleEndian.bytes 4 c.toNat) :=
    packUInt_of_lt h0 hlt
  have hs : packUInt 1 (status c).soc = .ok [85] := rfl
  have hh : packUInt 1 (status c).soh = .ok [98] := rfl
  have hf : packUInt 1 (status c).faultFlags = .ok [0] := rfl
  simp only [encodeStatus, hc, hs, hh, hf, ok_bind, pure_eq_ok]
  exact ⟨_, rfl⟩

theorem not_unsafe_status (c : Int) : ¬ VehicleNode.Unsafe (status c).rounded := by
  have hsafe : ¬ VehicleNode.Unsafe (status 0).rounded := by decide +kernel
  exact hsafe

end BatteryNode

/-! ## The vehicle -/

open VehicleNode BatteryNode

theorem statusCounter_status {c : Int} {m : CANMessage} (h : encodeStatus (status c) = .ok m) :
    m.arbitrationId = CanId.batteryStatus ∧ decodeStatus m = .ok (status c).rounded ∧
      statusCounter m = some c := by
  obtain ⟨hid, -, hdec⟩ := encodeStatus_ok h
  exact ⟨hid, hdec, statusCounter_eq_some.2 ⟨hid, _, hdec, rfl⟩⟩

theorem valid_status_iff (self : VehicleNode PK) {c : Int} {m : CANMessage}
    (h : encodeStatus (status c) = .ok m) :
    Valid (self.receive m).2 ↔ self.replay.lastCounter < c := by
  obtain ⟨hid, hdec, -⟩ := statusCounter_status h
  constructor
  · intro h
    obtain ⟨s, hs⟩ := h
    obtain ⟨-, hs', hlt, -⟩ := (receive_valid_iff self m s).1 hs
    rw [hdec] at hs'
    cases hs'
    exact hlt
  · intro hlt
    exact ⟨_, (receive_valid_iff self m _).2 ⟨hid, hdec, hlt, not_unsafe_status c⟩⟩

/-- A delivered frame of the stream is `VALID` exactly if its counter exceeds all earlier ones. -/
theorem valid_delivery_iff (root : Option PK) {deliveries : List CANMessage}
    {before after : List (CANMessage × Except Err Report)} {m : CANMessage}
    {r : Except Err Report} {c : Int}
    (hlog : receiver.log (init root) deliveries = before ++ (m, r) :: after) (hc : 0 < c)
    (hm : encodeStatus (status c) = .ok m) :
    Valid r ↔ ∀ m' ∈ before.map Prod.fst, ∀ c', statusCounter m' = some c' → c' < c := by
  obtain ⟨earlier, later, -, rfl, rfl, -⟩ := receiver.log_eq_append_cons hlog
  rw [Mealy.map_fst_log]
  refine (valid_status_iff _ hm).trans ((run_lastCounter_lt receiver_lastCounter).trans ?_)
  exact and_iff_right hc

section
variable {n : Nat} {frame : Nat → CANMessage}
  (hframe : ∀ k < n, encodeStatus (status (k + 1 : Int)) = .ok (frame k))
include hframe

theorem counters_pairwise : ((List.range n).map frame).Pairwise fun m m' =>
    ∀ c c', statusCounter m = some c → statusCounter m' = some c' → c < c' := by
  have hcounter : ∀ k < n, statusCounter (frame k) = some (k + 1 : Int) :=
    fun k hk => (statusCounter_status (hframe k hk)).2.2
  refine List.pairwise_map.2 ((List.Pairwise.and_mem.1 List.pairwise_lt_range).imp ?_)
  intro k k' h c c' hc hc'
  obtain ⟨hk, hk', hlt⟩ := h
  rw [hcounter k (List.mem_range.1 hk)] at hc
  rw [hcounter k' (List.mem_range.1 hk')] at hc'
  cases hc
  cases hc'
  omega

theorem valid_of_sublist (root : Option PK) {deliveries : List CANMessage}
    (hsub : deliveries.Sublist ((List.range n).map frame)) :
    ∀ e ∈ receiver.log (init root) deliveries, Valid e.2 := by
  intro e he
  obtain ⟨before, after, hlog⟩ := List.append_of_mem he
  obtain ⟨m, r⟩ := e
  have hdel : deliveries = before.map Prod.fst ++ m :: after.map Prod.fst := by
    rw [← receiver.map_fst_log (init root) deliveries, hlog]
    simp
  have hm : m ∈ deliveries := by rw [hdel]; simp
  obtain ⟨k, hk, rfl⟩ := List.mem_map.1 (hsub.subset hm)
  have hsent := hframe k (List.mem_range.1 hk)
  -- an earlier delivery is an earlier send, and has a smaller counter
  have hinc := (counters_pairwise hframe).sublist hsub
  rw [hdel] at hinc
  refine (valid_delivery_iff root hlog (by omega) hsent).2 fun m' hm' c hc => ?_
  exact (List.pairwise_append.1 hinc).2.2 m' hm' _ List.mem_cons_self c _ hc
    (statusCounter_status hsent).2.2

end

/-- **Delivery**: of the frames of `n` sends, delivered in any way, exactly those with a new
greatest counter are `VALID`; delivered in order with any losses, all are. -/
theorem delivered_valid_iff (root : Option PK) (battery : Battery π) {n : Nat} (hn : n < 2 ^ 32) :
    ∃ frames : List CANMessage,
      BatteryNode.sends { battery } n = frames.map .ok ∧
      frames.map statusCounter = (List.range n).map (fun k : Nat => some (k + 1 : Int)) ∧
      (∀ deliveries : List CANMessage, (∀ m ∈ deliveries, m ∈ frames) →
        ∀ before m r after, receiver.log (init root) deliveries = before ++ (m, r) :: after →
          (Valid r ↔ ∀ e ∈ before, ∀ c c', statusCounter e.1 = some c →
            statusCounter m = some c' → c < c')) ∧
      (∀ deliveries : List CANMessage, deliveries.Sublist frames →
        ∀ e ∈ receiver.log (init root) deliveries, Valid e.2) := by
  have hsend : ∀ k < n, ∃ m, encodeStatus (status (k + 1 : Int)) = .ok m :=
    fun k hk => encodeStatus_status (by omega) (by omega)
  choose! frame hframe using hsend
  have hcounter : ∀ k < n, statusCounter (frame k) = some (k + 1 : Int) :=
    fun k hk => (statusCounter_status (hframe k hk)).2.2
  refine ⟨(List.range n).map frame, ?_, ?_, ?_, fun _ => valid_of_sublist hframe root⟩
  · rw [sends_eq, List.map_map]
    refine List.map_congr_left fun k hk => ?_
    have hk' : (0 : Int) + (k + 1 : Nat) = k + 1 := by push_cast; omega
    rw [show (MessageCounter.counter {}) = 0 from rfl, hk', hframe k (List.mem_range.1 hk)]
    rfl
  · rw [List.map_map]
    exact List.map_congr_left fun k hk => hcounter k (List.mem_range.1 hk)
  · intro deliveries hdel before m r after hlog
    have hm : m ∈ deliveries := by
      rw [← receiver.map_fst_log (init root) deliveries, hlog]
      simp
    obtain ⟨k, hk, rfl⟩ := List.mem_map.1 (hdel m hm)
    have hk := List.mem_range.1 hk
    rw [valid_delivery_iff root hlog (by omega) (hframe k hk), hcounter k hk]
    constructor
    · intro h e he c c' hc hc'
      cases hc'
      exact h _ (List.mem_map_of_mem he) c hc
    · intro h m' hm' c hc
      obtain ⟨e, he, rfl⟩ := List.mem_map.1 hm'
      exact h e he c _ hc rfl

/-- A battery with software keys of the toy scheme. -/
def plainBattery : Battery (SoftwareProvider plainEcdsa) where
  identity := ⟨Str.ofString "BAT001", Str.ofString "SN0001", Str.ofString "BATTLOCK"⟩
  keys := ⟨⟨SoftwareKeys.init plainEcdsa 9⟩⟩

theorem delivered_valid_three :
    ∃ frames : List CANMessage,
      BatteryNode.sends { battery := plainBattery } 3 = frames.map .ok ∧
        ∀ e ∈ receiver.log (init (some (7 : UInt8))) frames, Valid e.2 := by
  obtain ⟨frames, hframes, -, -, hvalid⟩ :=
    delivered_valid_iff (some (7 : UInt8)) plainBattery (n := 3) (by decide)
  exact ⟨frames, hframes, hvalid frames (List.Sublist.refl _)⟩

end BattLock
