import BattLock.Attacks.Frames
import BattLock.Can.Simulation.Proof.Delivery

/-!
# The vehicle under attack

What the vehicle reports `VALID` in any mix of the battery's statuses with frames of the attacks
(`traffic_valid_iff`): flooding, spoofing, random frames and session identifiers change nothing, an
injected status is never accepted but its counter is, and one that is modified, corrupted or made
to evade the checks gets through exactly if what is read in it passes them.
-/

namespace BattLock

open Python VehicleNode BatteryNode

/-! ## What each frame is for the vehicle -/

namespace FuzzingAttack

theorem length_truncate {data : Bytes} (hdata : data.length = 19) (newLen : Nat) :
    ((Operation.truncate newLen).apply data).length < 19 := by
  have hlt : newLen % (data.length - 1 + 1) < data.length - 1 + 1 :=
    Nat.mod_lt newLen (Nat.succ_pos _)
  rw [Operation.apply, List.length_take]
  omega

theorem length_extend (data : Bytes) {extra : Bytes}
    (hextra : 1 ≤ extra.length ∧ extra.length ≤ 8) :
    ((Operation.extend extra hextra).apply data).length ≤ 8 := by
  rw [Operation.apply, List.length_take]
  omega

end FuzzingAttack

namespace Sent

/-- The battery's status with a counter, as it is decoded, with the fields that are given. -/
def modified (counter : Nat) (voltage current temperature : Option PyFloat)
    (soc soh faultFlags : Option Int) : BatteryStatus :=
  let status := (BatteryNode.status counter).rounded
  ⟨status.counter, voltage.getD status.voltage, current.getD status.current,
    temperature.getD status.temperature, soc.getD status.soc, soh.getD status.soh,
    faultFlags.getD status.faultFlags⟩

/-- The status that the vehicle reads in a frame: of a corrupted one, whatever its bytes say if
their number is still right. -/
def carried : Sent → Option BatteryStatus
  | status counter => some (BatteryNode.status counter).rounded
  | mitm counter voltage current temperature soc soh faultFlags =>
    some (modified counter voltage current temperature soc soh faultFlags).rounded
  | corrupted _ (.truncate _) => none
  | corrupted _ (.extend _ _) => none
  | corrupted counter operation =>
    (corrupted counter operation).frame.toOption.bind fun m => (decodeStatus m).toOption
  | injection => some InjectionAttack.fakeStatus.rounded
  | evasion voltage current temperature counter =>
    some (EvasionAttack.evasiveStatus voltage current temperature counter).rounded
  | faultFlagEvasion faultFlags counter =>
    some (EvasionAttack.flaggedStatus faultFlags counter).rounded
  | _ => none

/-- Whether its content passes the checks: the battery's statuses do, an evasive one if no
measurement is near its limit, a flagged one if no flag is a fault, a modified or corrupted one if
all its fields do. -/
def Passes : Sent → Prop
  | status _ => True
  | mitm counter voltage current temperature soc soh faultFlags =>
    ¬ Unsafe (modified counter voltage current temperature soc soh faultFlags).rounded
  | corrupted counter operation => ∀ s, (corrupted counter operation).carried = some s → ¬ Unsafe s
  | evasion voltage current temperature counter =>
    exceeds (EvasionAttack.evasiveStatus voltage current temperature counter).rounded voltageWarn
      currentWarn temperatureWarn = false
  | faultFlagEvasion faultFlags _ => faultFlags.toNat &&& Fault.mask = 0
  | _ => False

theorem encoded_iff {s₀ s : BatteryStatus} {m : CANMessage} (hm : encodeStatus s₀ = .ok m) :
    some s₀.rounded = some s ↔
      m.arbitrationId = CanId.batteryStatus ∧ decodeStatus m = .ok s := by
  obtain ⟨hid, -, hdec⟩ := encodeStatus_ok hm
  rw [hdec, Option.some.injEq, Except.ok.injEq]
  exact (and_iff_right hid).symm

theorem nothing_iff {s : BatteryStatus} {m : CANMessage}
    (hm : m.arbitrationId ≠ CanId.batteryStatus ∨ m.data.length ≠ 19) :
    none = some s ↔ m.arbitrationId = CanId.batteryStatus ∧ decodeStatus m = .ok s := by
  refine iff_of_false (by simp) fun h => ?_
  obtain ⟨hid, hdec⟩ := h
  cases hm with
  | inl hother => exact hother hid
  | inr hlen =>
    rw [decodeStatus, if_neg hlen] at hdec
    cases hdec

theorem mitm_iff {counter : Nat} {voltage current temperature : Option PyFloat}
    {soc soh faultFlags : Option Int} {sent m : CANMessage} {s : BatteryStatus}
    (hsent : encodeStatus (BatteryNode.status counter) = .ok sent)
    (hm : (MitMAttack.intercept {} sent).modify voltage current temperature soc soh faultFlags =
      .ok m) :
    some (modified counter voltage current temperature soc soh faultFlags).rounded = some s ↔
      m.arbitrationId = CanId.batteryStatus ∧ decodeStatus m = .ok s := by
  obtain ⟨-, -, hdec⟩ := encodeStatus_ok hsent
  dsimp only [MitMAttack.intercept, MitMAttack.modify] at hm
  rw [hdec, ok_bind] at hm
  exact encoded_iff hm

/-- **What the vehicle reads in each frame.** -/
theorem carried_iff {x : Sent} {m : CANMessage} (hm : x.frame = .ok m) (s : BatteryStatus) :
    x.carried = some s ↔ m.arbitrationId = CanId.batteryStatus ∧ decodeStatus m = .ok s := by
  cases x with
  | status counter => exact encoded_iff hm
  | injection => exact encoded_iff hm
  | evasion voltage current temperature counter => exact encoded_iff hm
  | faultFlagEvasion faultFlags counter => exact encoded_iff hm
  | dos =>
    cases hm
    exact nothing_iff (.inl (by decide))
  | spoofing =>
    cases hm
    exact nothing_iff (.inl (by decide))
  | fuzzing draw =>
    cases hm
    have hlen := draw.length_le
    refine nothing_iff (.inr ?_)
    show draw.data.length ≠ 19
    omega
  | mitm counter voltage current temperature soc soh faultFlags =>
    rw [frame, bind_eq_ok] at hm
    obtain ⟨sent, hsent, hmodify⟩ := hm
    exact mitm_iff hsent hmodify
  | corrupted counter operation =>
    have hframe := hm
    rw [frame] at hm
    cases hsent : encodeStatus (BatteryNode.status counter) with
    | error e =>
      rw [hsent] at hm
      cases hm
    | ok sent =>
      obtain ⟨hid, hlen, -⟩ := encodeStatus_ok hsent
      rw [hsent] at hm
      cases hm
      -- the identifier stays
      have hread : ((corrupted counter operation).frame.toOption.bind fun m =>
          (decodeStatus m).toOption) = some s ↔
            sent.arbitrationId = CanId.batteryStatus ∧
              decodeStatus (FuzzingAttack.corruptStatusFrame sent operation) = .ok s := by
        rw [hframe, and_iff_right hid]
        cases hdec : decodeStatus (FuzzingAttack.corruptStatusFrame sent operation) with
        | error e => simp [Except.toOption, hdec]
        | ok s' => simp [Except.toOption, hdec]
      cases operation with
      | flip idx bit => exact hread
      | shuffle draws => exact hread
      | truncate newLen =>
        exact nothing_iff (.inr (FuzzingAttack.length_truncate hlen newLen).ne)
      | extend extra hextra =>
        have hle := FuzzingAttack.length_extend sent.data hextra
        refine nothing_iff (.inr ?_)
        show ((FuzzingAttack.Operation.extend extra hextra).apply sent.data).length ≠ 19
        omega
  | hijack attack =>
    obtain ⟨captured⟩ := attack
    cases captured with
    | none => cases hm
    | some message =>
      cases hm
      exact nothing_iff (.inl (by rw [message.property]; decide))
  | fakeSession sessionId =>
    obtain ⟨data, -, hdata⟩ := bind_eq_ok.1 hm
    cases hdata
    exact nothing_iff (.inl (show CanId.sessionId ≠ CanId.batteryStatus by decide))

theorem not_unsafe_iff {x : Sent} {s : BatteryStatus} (hx : x.carried = some s) :
    ¬ Unsafe s ↔ x.Passes := by
  cases x with
  | status counter =>
    cases hx
    exact ⟨fun _ => trivial, fun _ => not_unsafe_status _⟩
  | mitm counter voltage current temperature soc soh faultFlags =>
    cases hx
    rfl
  | corrupted counter operation =>
    refine ⟨fun h s' hs' => ?_, fun h => h s hx⟩
    obtain rfl := Option.some.inj (hx.symm.trans hs')
    exact h
  | injection =>
    cases hx
    have hunsafe : Unsafe InjectionAttack.fakeStatus.rounded := by decide +kernel
    exact ⟨fun h => h hunsafe, fun h => h.elim⟩
  | evasion voltage current temperature counter =>
    cases hx
    have hflags : (EvasionAttack.evasiveStatus voltage current temperature
        counter).rounded.faultFlags.toNat &&& Fault.mask = 0 := by
      show (0 : Int).toNat &&& Fault.mask = 0
      decide
    rw [Unsafe, not_or, not_not, Bool.not_eq_true]
    exact and_iff_right hflags
  | faultFlagEvasion faultFlags counter =>
    cases hx
    have hsafe := not_unsafe_status counter
    rw [Unsafe, not_or, Bool.not_eq_true] at hsafe ⊢
    rw [not_not]
    exact and_iff_left hsafe.2
  | dos => cases hx
  | spoofing => cases hx
  | fuzzing draw => cases hx
  | hijack attack => cases hx
  | fakeSession sessionId => cases hx

/-- The default factors are below the limits, but not below the warnings. -/
example : Unsafe EvasionAttack.defaultStatus.rounded := by decide +kernel

theorem statusCounter_frame {x : Sent} {m : CANMessage} (hm : x.frame = .ok m) :
    statusCounter m = x.carried.map BatteryStatus.counter := by
  apply Option.ext
  intro c
  rw [statusCounter_eq_some, Option.map_eq_some_iff]
  constructor
  · intro h
    obtain ⟨hid, s, hdec, hc⟩ := h
    exact ⟨s, (carried_iff hm s).2 ⟨hid, hdec⟩, hc⟩
  · intro h
    obtain ⟨s, hs, hc⟩ := h
    obtain ⟨hid, hdec⟩ := (carried_iff hm s).1 hs
    exact ⟨hid, s, hdec, hc⟩

end Sent

/-! ## Floods are traffic -/

theorem mapM_ok {α β : Type} {f : α → Except Err β} {g : α → β} (h : ∀ a, f a = .ok (g a))
    (l : List α) : l.mapM f = .ok (l.map g) := by
  induction l with
  | nil => rfl
  | cons a l ih =>
    rw [List.mapM_cons, h, ih]
    rfl

theorem dos_flood_frames (count : Nat) :
    (List.replicate 1000 Sent.dos).mapM Sent.frame = .ok (DoSAttack.flood count) := by
  have hframe := mapM_ok (f := fun _ : Unit => Sent.frame .dos) (fun _ => rfl)
    (List.replicate 1000 ())
  rw [List.map_replicate] at hframe
  rw [← List.map_replicate (f := fun _ : Unit => Sent.dos) (a := ()), List.mapM_map]
  exact hframe

theorem fuzzing_flood_frames (draws : List FuzzingAttack.Draw) :
    (draws.map Sent.fuzzing).mapM Sent.frame = .ok (FuzzingAttack.flood draws) := by
  rw [List.mapM_map]
  exact mapM_ok (fun _ => rfl) draws

/-! ## Any traffic -/

/-- The frame that a call hands to `receive`. -/
def VehicleNode.Call.received : Call → Option CANMessage
  | .receive m => some m
  | _ => none

/-- What the counters of some calls are below: only received frames have one. -/
theorem calls_counters {calls : List Call} {c : Int} :
    (∀ call ∈ calls, ∀ c', call.statusCounter = some c' → c' < c) ↔
      ∀ m ∈ calls.filterMap Call.received, ∀ c', statusCounter m = some c' → c' < c := by
  constructor
  · intro h m hm
    obtain ⟨call, hcall, hreceived⟩ := List.mem_filterMap.1 hm
    cases call with
    | receive m' =>
      cases hreceived
      exact h _ hcall
    | _ => cases hreceived
  · intro h call hcall c' hc'
    cases call with
    | receive m => exact h m (List.mem_filterMap.2 ⟨_, hcall, rfl⟩) c' hc'
    | _ => cases hc'

/-- **The vehicle under attack**: at every point of any traffic, with any authentication calls in
between, a frame is reported `VALID` if and only if a status is read in it that passes and whose
counter is above those of all statuses read before, the refused ones included. -/
theorem traffic_valid_iff [Interpreter] {SK PK : Type} (E : Ecdsa SK PK) (root : Option PK)
    (calls : List Call) (earlier : List Sent) (x : Sent) {m : CANMessage}
    (hframes : earlier.mapM Sent.frame = .ok (calls.filterMap Call.received))
    (hm : x.frame = .ok m) :
    Valid (((machine E).run (VehicleNode.init root) calls).receive m).2 ↔
      x.Passes ∧ ∃ s, x.carried = some s ∧ 0 < s.counter ∧
        ∀ y ∈ earlier, ∀ s', y.carried = some s' → s'.counter < s.counter := by
  have hcounters : ∀ c : Int,
      (∀ m' ∈ calls.filterMap Call.received, ∀ c', statusCounter m' = some c' → c' < c) ↔
        ∀ y ∈ earlier, ∀ s', y.carried = some s' → s'.counter < c := by
    intro c
    have hforall := mapM_eq_ok.1 hframes
    clear hframes
    generalize calls.filterMap Call.received = frames at hforall ⊢
    induction hforall with
    | nil => simp
    | cons hy _ ih =>
      rw [List.forall_mem_cons, List.forall_mem_cons, Sent.statusCounter_frame hy]
      refine and_congr ?_ ih
      simp
  have hlast : ∀ c : Int,
      ((machine E).run (VehicleNode.init root) calls).replay.lastCounter < c ↔ 0 < c ∧
        ∀ y ∈ earlier, ∀ s', y.carried = some s' → s'.counter < c := by
    intro c
    rw [run_lastCounter_lt (machine_lastCounter E), calls_counters, hcounters]
    rfl
  constructor
  · intro h
    obtain ⟨s, hs⟩ := h
    obtain ⟨hid, hdec, hlt, hsafe⟩ := (receive_valid_iff _ m s).1 hs
    have hcarried := (Sent.carried_iff hm s).2 ⟨hid, hdec⟩
    exact ⟨(Sent.not_unsafe_iff hcarried).1 hsafe, s, hcarried, (hlast s.counter).1 hlt⟩
  · intro h
    obtain ⟨hpasses, s, hcarried, habove⟩ := h
    obtain ⟨hid, hdec⟩ := (Sent.carried_iff hm s).1 hcarried
    exact ⟨s, (receive_valid_iff _ m s).2
      ⟨hid, hdec, (hlast s.counter).2 habove, (Sent.not_unsafe_iff hcarried).2 hpasses⟩⟩

open CPython in
/-- An injected status, though refused, uses up the counters below its own. -/
theorem traffic_valid_iff_burned : ∃ injected m,
    Sent.injection.frame = .ok injected ∧ (Sent.status 999).frame = .ok m ∧
      ¬ Valid (((machine plainEcdsa).run (VehicleNode.init (some 7))
        [.receive injected, .sendNonce [1] none, .receive DoSAttack.spam]).receive m).2 := by
  obtain ⟨injected, hinjected⟩ : ∃ m, Sent.injection.frame = .ok m := by
    refine ⟨⟨CanId.batteryStatus,
      [231, 3, 0, 0, 0, 192, 121, 68, 0, 192, 121, 68, 0, 192, 121, 68, 100, 100, 0]⟩, ?_⟩
    decide +kernel
  obtain ⟨m, hm⟩ := encodeStatus_status (c := 999) (by decide) (by decide)
  refine ⟨injected, m, hinjected, hm, fun h => ?_⟩
  have hframes : [Sent.injection, .dos].mapM Sent.frame = .ok ([.receive injected,
      .sendNonce [1] none, .receive DoSAttack.spam].filterMap Call.received) := by
    rw [List.mapM_cons, hinjected]
    rfl
  obtain ⟨-, s, hs, -, habove⟩ :=
    (traffic_valid_iff _ _ _ [.injection, .dos] (.status 999) hframes hm).1 h
  cases hs
  exact absurd (habove .injection List.mem_cons_self _ rfl) (by decide)

end BattLock
