import BattLock.Attacks.MitM
import BattLock.Can.Simulation.Proof.Telemetry

/-!
# Replay and rejection over whole runs

Every status frame that was delivered, whatever its verdict, keeps the later ones with its counter
or a smaller one from being `VALID` (`replay_never_valid`). The other side of this is that a
forged status above the last counter moves it even when its content is refused; the refused frames
that leave the node alone are exactly the others (`rejected_unchanged_iff`).
-/

namespace BattLock.VehicleNode

open Python Python.Struct

variable {PK : Type}

/-! ## No replay -/

/-- The status a frame is accepted with. -/
def acceptedStatus : Except Err Report → Option BatteryStatus
  | .ok (.valid status) => some status
  | _ => none

theorem acceptedStatus_eq_some {r : Except Err Report} {s : BatteryStatus} :
    acceptedStatus r = some s ↔ r = .ok (.valid s) := by
  unfold acceptedStatus
  split <;> simp_all

/-- The statuses a log reports `VALID`, in order. -/
def accepted (log : List (CANMessage × Except Err Report)) : List BatteryStatus :=
  log.filterMap fun e => acceptedStatus e.2

/-- Every status counter delivered so far is at most the last counter, which is not negative. -/
def CountersBelow (log : List (CANMessage × Except Err Report)) (t : VehicleNode PK) : Prop :=
  0 ≤ t.replay.lastCounter ∧
    ∀ e ∈ log, ∀ c, statusCounter e.1 = some c → c ≤ t.replay.lastCounter

theorem countersBelow_init (root : Option PK) : CountersBelow [] (init root) :=
  ⟨Int.le_refl 0, by simp⟩

theorem countersBelow_step (l : List (CANMessage × Except Err Report)) (t : VehicleNode PK)
    (m : CANMessage) (h : CountersBelow l t) :
    CountersBelow (l ++ [(m, (receiver.step t m).2)]) (receiver.step t m).1 := by
  have hle : t.replay.lastCounter ≤ (receiver.step t m).1.replay.lastCounter := by
    rw [receiver_lastCounter]
    cases statusCounter m with
    | none => exact Int.le_refl _
    | some c => exact le_max_left _ _
  refine ⟨Int.le_trans h.1 hle, fun e he c hc => ?_⟩
  rcases List.mem_append.1 he with he | he
  · exact Int.le_trans (h.2 e he c hc) hle
  · rw [List.mem_singleton.1 he] at hc
    rw [receiver_lastCounter, hc]
    exact le_max_right _ _

theorem valid_above_earlier (root : Option PK) (frames : List CANMessage) :
    (receiver.log (init root) frames).Pairwise fun e e' =>
      ∀ c s, statusCounter e.1 = some c → e'.2 = .ok (.valid s) →
        statusCounter e'.1 = some s.counter ∧ c < s.counter := by
  refine receiver.log_pairwise (countersBelow_init root) countersBelow_step
    (fun l t m hP e he c s hc hs => ?_) frames
  obtain ⟨hm, hlt⟩ := receive_valid_counter hs
  exact ⟨hm, Int.lt_of_le_of_lt (hP.2 e he c hc) hlt⟩

theorem valid_counter_pos (root : Option PK) {frames : List CANMessage} {m : CANMessage}
    {s : BatteryStatus} (h : (m, .ok (.valid s)) ∈ receiver.log (init root) frames) :
    statusCounter m = some s.counter ∧ 0 < s.counter := by
  obtain ⟨before, after, -, hr⟩ := receiver.mem_log.1 h
  have hP := receiver.log_inv (countersBelow_init root) countersBelow_step before
  obtain ⟨hm, hlt⟩ := receive_valid_counter hr.symm
  exact ⟨hm, Int.lt_of_le_of_lt hP.1 hlt⟩

theorem statusCounter_variant {m m' : CANMessage} (hid : m.arbitrationId = CanId.batteryStatus)
    (h : MitMAttack.Variant m m') : statusCounter m' = statusCounter m := by
  obtain ⟨v, i, t, soc, soh, f, h⟩ := h
  simp only [MitMAttack.modify, MitMAttack.intercept, bind_eq_ok] at h
  obtain ⟨s, hs, hm'⟩ := h
  obtain ⟨hid', -, hdec⟩ := encodeStatus_ok hm'
  rw [statusCounter_eq_some.2 ⟨hid, s, hs, rfl⟩, statusCounter_eq_some.2 ⟨hid', _, hdec, rfl⟩]
  rfl

/-- **No replay**: in every run the accepted counters are positive and increasing, a frame whose
counter is not above that of an earlier status frame is not `VALID`, and so neither is a frame
delivered before nor one made from a status frame delivered before. -/
theorem replay_never_valid (root : Option PK) (frames : List CANMessage) :
    let log := receiver.log (init root) frames
    (∀ m s, (m, .ok (.valid s)) ∈ log → statusCounter m = some s.counter ∧ 0 < s.counter) ∧
    ((accepted log).map BatteryStatus.counter).Pairwise (· < ·) ∧
    (log.Pairwise fun e e' => ∀ c c', statusCounter e.1 = some c →
      statusCounter e'.1 = some c' → c' ≤ c → ¬ Valid e'.2) ∧
    (log.Pairwise fun e e' => e'.1 = e.1 → ¬ Valid e'.2) ∧
    (log.Pairwise fun e e' => e.1.arbitrationId = CanId.batteryStatus →
      MitMAttack.Variant e.1 e'.1 → ¬ Valid e'.2) := by
  intro log
  have habove := valid_above_earlier root frames
  have hcounter : ∀ e ∈ log, ∀ s, e.2 = .ok (.valid s) → statusCounter e.1 = some s.counter := by
    rintro ⟨m, r⟩ he s rfl
    exact (valid_counter_pos root he).1
  have hreplay : log.Pairwise fun e e' => statusCounter e'.1 = statusCounter e.1 →
      ¬ Valid e'.2 := by
    refine (List.Pairwise.and_mem.1 habove).imp ?_
    rintro e e' ⟨-, he', h⟩ heq ⟨s, hs⟩
    have hc := hcounter e' he' s hs
    exact Int.lt_irrefl _ (h _ s (heq ▸ hc) hs).2
  refine ⟨fun m s h => valid_counter_pos root h, ?_, ?_, ?_, ?_⟩
  · rw [List.pairwise_map, accepted, List.pairwise_filterMap]
    refine (List.Pairwise.and_mem.1 habove).imp ?_
    rintro e e' ⟨he, -, h⟩ s hs s' hs'
    have hc := hcounter e he s (acceptedStatus_eq_some.1 hs)
    exact (h _ s' hc (acceptedStatus_eq_some.1 hs')).2
  · refine habove.imp ?_
    rintro e e' h c c' hc hc' hle ⟨s, hs⟩
    obtain ⟨hm, hlt⟩ := h c s hc hs
    rw [hc'] at hm
    cases hm
    omega
  · exact hreplay.imp fun h heq => h (by rw [heq])
  · exact hreplay.imp fun h hid hvar => h (statusCounter_variant hid hvar)

/-- An honest status with counter 1. -/
def honestFrame : CANMessage :=
  ⟨0x200, [1, 0, 0, 0, 205, 204, 76, 66, 102, 102, 70, 65, 0, 0, 240, 65, 85, 98, 0]⟩

/-- What it decodes to: 51.2, 12.4 and 30.0, rounded to binary32. -/
def honestStatus : BatteryStatus :=
  ⟨1, .ofBits 0x40499999A0000000, .ofBits 0x4028CCCCC0000000, .ofBits 0x403E000000000000, 85, 98, 0⟩

/-- The bytes of a status in a frame that is no status frame: it is ignored and its counter is not
delivered, and what `modify` makes of it is `VALID`. -/
theorem ignored_variant_valid :
    ¬ ∀ frames : List CANMessage,
      (receiver.log (init (none : Option Unit)) frames).Pairwise fun e e' =>
        MitMAttack.Variant e.1 e'.1 → ¬ Valid e'.2 := by
  intro h
  have hpair := h [⟨0x300, honestFrame.data⟩, honestFrame]
  have hvariant : MitMAttack.Variant ⟨0x300, honestFrame.data⟩ honestFrame :=
    ⟨none, none, none, none, none, none, by decide +kernel⟩
  have hvalid : acceptedStatus (((receiver.step (init (none : Option Unit))
      ⟨0x300, honestFrame.data⟩).1).receive honestFrame).2 = some honestStatus := by
    decide +kernel
  simp only [Mealy.log_cons, Mealy.log_nil, List.pairwise_cons, List.mem_singleton,
    forall_eq] at hpair
  exact hpair.1 hvariant ⟨_, acceptedStatus_eq_some.1 hvalid⟩

/-! ## Rejected frames -/

/-- A status that is fresh and refused for its content. -/
def RefusedContent (self : VehicleNode PK) (m : CANMessage) : Prop :=
  ∃ s, decodeStatus m = .ok s ∧ self.replay.lastCounter < s.counter ∧ Unsafe s

/-- A refused status frame leaves the node as it was, or moves the last counter to its own. -/
theorem refused_cases (self : VehicleNode PK) {m : CANMessage}
    (hid : m.arbitrationId = CanId.batteryStatus) (hr : ¬ Valid (self.receive m).2) :
    (¬ RefusedContent self m ∧ (self.receive m).1 = self) ∨
      (RefusedContent self m ∧
        (self.receive m).1.replay.lastCounter ≠ self.replay.lastCounter) := by
  cases hdec : decodeStatus m with
  | error e =>
    refine .inl ⟨fun ⟨s, hs, _⟩ => (by rw [hdec] at hs; cases hs), ?_⟩
    rw [receive_status self hid, handleStatus_malformed self]
    intro hlen
    obtain ⟨s, hs, -⟩ := decodeStatus_ok hlen
    rw [hdec] at hs
    cases hs
  | ok s =>
    by_cases hlt : self.replay.lastCounter < s.counter
    · have hunsafe : Unsafe s := by
        by_contra hsafe
        exact hr ⟨s, (receive_valid_iff self m s).2 ⟨hid, hdec, hlt, hsafe⟩⟩
      refine .inr ⟨⟨s, hdec, hlt, hunsafe⟩, ?_⟩
      rw [receive_status self hid, handleStatus_ok self hdec, if_neg (by omega)]
      exact Int.ne_of_gt hlt
    · refine .inl ⟨?_, ?_⟩
      · intro h
        obtain ⟨s', hs', hlt', -⟩ := h
        rw [hdec] at hs'
        cases hs'
        exact hlt hlt'
      · rw [receive_status self hid, handleStatus_ok self hdec, if_pos (by omega)]

/-- **Which rejections leave the node alone**: exactly those that are not for the content of a
fresh status; inserting only such rejected frames changes no other verdict. -/
theorem rejected_unchanged_iff :
    (∀ (self : VehicleNode PK) (m : CANMessage), m.arbitrationId = CanId.batteryStatus →
      ((¬ Valid (self.receive m).2 → (self.receive m).1 = self) ↔ ¬ RefusedContent self m)) ∧
    ∀ (self : VehicleNode PK) (js : List (Bool × CANMessage)),
      (∀ js₁ m js₂, js = js₁ ++ (false, m) :: js₂ →
        m.arbitrationId = CanId.batteryStatus ∧
          ¬ Valid ((receiver.run self (js₁.map Prod.snd)).receive m).2 ∧
            ¬ RefusedContent (receiver.run self (js₁.map Prod.snd)) m) →
      receiver.keptLog self js = receiver.log self (Mealy.kept js) := by
  constructor
  · intro self m hid
    constructor
    · intro h hrefused
      have hr : ¬ Valid (self.receive m).2 := by
        intro hvalid
        obtain ⟨s, hs⟩ := hvalid
        obtain ⟨-, hdec, -, hsafe⟩ := (receive_valid_iff self m s).1 hs
        obtain ⟨s', hs', -, hunsafe⟩ := hrefused
        rw [hdec] at hs'
        cases hs'
        exact hsafe hunsafe
      rcases refused_cases self hid hr with ⟨hnot, -⟩ | ⟨-, hne⟩
      · exact hnot hrefused
      · exact hne (by rw [h hr])
    · intro hnot hr
      rcases refused_cases self hid hr with ⟨-, heq⟩ | ⟨hrefused, -⟩
      · exact heq
      · exact absurd hrefused hnot
  · intro self js h
    refine receiver.keptLog_eq fun js₁ m js₂ hjs => ?_
    obtain ⟨hid, hr, hnot⟩ := h js₁ m js₂ hjs
    rcases refused_cases _ hid hr with ⟨-, heq⟩ | ⟨hrefused, -⟩
    · exact heq
    · exact absurd hrefused hnot

/-- A forged status with the greatest counter and 101 V. -/
def forgedFrame : CANMessage :=
  ⟨0x200, [255, 255, 255, 255, 0, 0, 202, 66, 102, 102, 70, 65, 0, 0, 240, 65, 85, 98, 0]⟩

/-- The forged frame is refused, moves the last counter, and silences the honest one. -/
theorem forged_silences_honest :
    let node : VehicleNode Unit := init none
    (node.receive forgedFrame).2 = .ok .injection ∧
      (node.receive forgedFrame).1 ≠ node ∧
      Valid (node.receive honestFrame).2 ∧
      ¬ Valid ((node.receive forgedFrame).1.receive honestFrame).2 := by
  intro node
  have hvalid : acceptedStatus (node.receive honestFrame).2 = some honestStatus := by
    decide +kernel
  have hsilent : ((node.receive forgedFrame).1.receive honestFrame).2 = .ok .replay := by
    decide +kernel
  refine ⟨by decide +kernel, fun h => ?_, ⟨_, acceptedStatus_eq_some.1 hvalid⟩, ?_⟩
  · have hlast : (node.receive forgedFrame).1.replay.lastCounter = 0 := by rw [h]; rfl
    exact absurd hlast (by decide +kernel)
  · rw [hsilent]
    simp

end BattLock.VehicleNode
