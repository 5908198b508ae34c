import BattLock.Attacks.Delay
import BattLock.Can.Simulation.Proof.Delivery

/-!
# What a delay does

The buffer neither makes nor repeats a message: what it releases and what it holds are, in some
order, part of what it was given (`delay_conserves`). Between the nodes it can only withhold: every
status it releases in the order of the battery is reported `VALID`, and of a reversed batch the
first one is, which makes the vehicle take the others for replays (`delayed_reports`).
-/

namespace BattLock.DelayAttack

open Python

/-! ## The buffer -/

def Call.intercepted? : Call → Option CANMessage
  | .intercept message => some message
  | _ => none

/-- A call that may lose messages. -/
def Call.Drops : Call → Prop
  | .releaseAll _ dropLast => dropLast = true
  | .clear => True
  | _ => False

def Call.Reverses : Call → Prop
  | .releaseAll reverse _ => reverse = true
  | _ => False

/-- What was released in a log. -/
def released (log : List (Call × List CANMessage)) : List CANMessage := log.flatMap Prod.snd

/-- What `release_all` lets through. -/
theorem releaseAll_cases (self : DelayAttack) (reverse dropLast : Bool) :
    ∃ kept : List CANMessage, kept.Sublist self.buffer ∧ (dropLast = false → kept = self.buffer) ∧
      self.releaseAll reverse dropLast = (⟨[]⟩, if reverse then kept.reverse else kept) := by
  obtain ⟨buffer⟩ := self
  cases buffer with
  | nil =>
    refine ⟨[], List.Sublist.refl _, fun _ => rfl, ?_⟩
    cases reverse with
    | true => rfl
    | false => rfl
  | cons msg buffer =>
    refine ⟨if dropLast then (msg :: buffer).dropLast else msg :: buffer, ?_, ?_, rfl⟩
    · split
      · exact List.dropLast_sublist _
      · exact List.Sublist.refl _
    · intro h
      rw [h]
      rfl

theorem step_cases (self : DelayAttack) (call : Call) (before : List CANMessage) :
    (before ++ (machine.step self call).2 ++ (machine.step self call).1.buffer).Subperm
        (before ++ self.buffer ++ call.intercepted?.toList) ∧
      (¬ call.Drops → (before ++ (machine.step self call).2 ++
        (machine.step self call).1.buffer).Perm
          (before ++ self.buffer ++ call.intercepted?.toList)) ∧
      (¬ call.Reverses → (before ++ (machine.step self call).2 ++
        (machine.step self call).1.buffer).Sublist
          (before ++ self.buffer ++ call.intercepted?.toList)) := by
  have hsame : ∀ {out given : List CANMessage}, out = given →
      out.Subperm given ∧ (¬ call.Drops → out.Perm given) ∧
        (¬ call.Reverses → out.Sublist given) := by
    intro out given h
    subst h
    exact ⟨List.Subperm.refl _, fun _ => List.Perm.refl _, fun _ => List.Sublist.refl _⟩
  cases call with
  | intercept message => exact hsame (by simp [machine, intercept, Call.intercepted?])
  | releaseAll reverse dropLast =>
    obtain ⟨kept, hkept, hall, heq⟩ := releaseAll_cases self reverse dropLast
    have hstep : machine.step self (.releaseAll reverse dropLast) =
        (⟨[]⟩, if reverse then kept.reverse else kept) := heq
    have hperm : (if reverse then kept.reverse else kept).Perm kept := by
      split
      · exact kept.reverse_perm
      · exact List.Perm.refl _
    rw [hstep]
    simp only [Call.intercepted?, Option.toList_none, List.append_nil]
    refine ⟨List.Subperm.append (List.Subperm.refl before) (hperm.subperm.trans hkept.subperm),
      fun hdrops => ?_, fun hreverses => ?_⟩
    · rw [hall (Bool.not_eq_true _ ▸ hdrops)] at hperm ⊢
      exact hperm.append_left before
    · rw [if_neg (show ¬ reverse = true from hreverses)]
      exact hkept.append_left before
  | releaseOne =>
    obtain ⟨buffer⟩ := self
    cases buffer with
    | nil => exact hsame (by simp [machine, releaseOne, Call.intercepted?])
    | cons msg buffer => exact hsame (by simp [machine, releaseOne, Call.intercepted?])
  | clear =>
    have hsub : (before ++ (machine.step self .clear).2 ++
        (machine.step self .clear).1.buffer).Sublist
          (before ++ self.buffer ++ Call.clear.intercepted?.toList) := by
      simp [machine, clear, Call.intercepted?]
    exact ⟨hsub.subperm, fun h => absurd trivial h, fun _ => hsub⟩

/-- **A delay makes and repeats no message**: over any calls, what was released, and then what is
still held, is part of what was intercepted; all of it when no call drops messages, and in the order
it was intercepted when none reverses them. -/
theorem delay_conserves (calls : List Call) :
    (released (machine.log {} calls) ++ (machine.run {} calls).buffer).Subperm
        (calls.filterMap Call.intercepted?) ∧
      ((∀ call ∈ calls, ¬ call.Drops) →
        (released (machine.log {} calls) ++ (machine.run {} calls).buffer).Perm
          (calls.filterMap Call.intercepted?)) ∧
      ((∀ call ∈ calls, ¬ call.Reverses) →
        (released (machine.log {} calls) ++ (machine.run {} calls).buffer).Sublist
          (calls.filterMap Call.intercepted?)) := by
  induction calls using List.reverseRecOn with
  | nil => exact ⟨List.Subperm.refl _, fun _ => List.Perm.refl _, fun _ => List.Sublist.refl _⟩
  | append_singleton calls call ih =>
    obtain ⟨hsub, hperm, hlist⟩ := ih
    obtain ⟨hsub', hperm', hlist'⟩ := step_cases (machine.run {} calls) call
      (released (machine.log {} calls))
    have hlog : released (machine.log {} (calls ++ [call])) =
        released (machine.log {} calls) ++ (machine.step (machine.run {} calls) call).2 := by
      rw [Mealy.log_concat, released, List.flatMap_append]
      simp [released]
    have hgiven : (calls ++ [call]).filterMap Call.intercepted? =
        calls.filterMap Call.intercepted? ++ call.intercepted?.toList := by
      rw [List.filterMap_append]
      cases hcall : call.intercepted? with
      | none => simp [hcall]
      | some message => simp [hcall]
    rw [hlog, hgiven, Mealy.run_append, Mealy.run_cons, Mealy.run_nil]
    refine ⟨hsub'.trans (hsub.append (List.Subperm.refl _)), fun h => ?_, fun h => ?_⟩
    · rw [List.forall_mem_append, List.forall_mem_singleton] at h
      exact (hperm' h.2).trans ((hperm h.1).append_right _)
    · rw [List.forall_mem_append, List.forall_mem_singleton] at h
      exact (hlist' h.2).trans ((hlist h.1).append_right _)

/-! ## Between the nodes -/

open BatteryNode VehicleNode

variable {π PK : Type}

/-- Status frames of the battery with increasing counters, above `last` and up to `top`. -/
inductive Ascending (top : Int) : Int → List CANMessage → Prop
  | nil {last : Int} : last ≤ top → Ascending top last []
  | cons {last c : Int} {m : CANMessage} {ms : List CANMessage} : last < c →
      encodeStatus (status c) = .ok m → Ascending top c ms → Ascending top last (m :: ms)

theorem Ascending.le {top last : Int} {ms : List CANMessage} (h : Ascending top last ms) :
    last ≤ top := by
  induction h with
  | nil h => exact h
  | cons hlt _ _ ih => exact (Int.le_of_lt hlt).trans ih

theorem Ascending.lower {top last last' : Int} {ms : List CANMessage} (h : Ascending top last ms)
    (hle : last' ≤ last) : Ascending top last' ms := by
  cases h with
  | nil h => exact .nil (hle.trans h)
  | cons hlt hm h => exact .cons (Int.lt_of_le_of_lt hle hlt) hm h

theorem Ascending.sublist {top last : Int} {ms ms' : List CANMessage} (h : Ascending top last ms)
    (hsub : ms'.Sublist ms) : Ascending top last ms' := by
  induction h generalizing ms' with
  | nil h =>
    cases hsub
    exact .nil h
  | cons hlt hm _ ih =>
    cases hsub with
    | cons _ hsub => exact (ih hsub).lower (Int.le_of_lt hlt)
    | cons_cons _ hsub => exact .cons hlt hm (ih hsub)

theorem Ascending.snoc {top last : Int} {ms : List CANMessage} {m : CANMessage}
    (h : Ascending top last ms) (hm : encodeStatus (status (top + 1)) = .ok m) :
    Ascending (top + 1) last (ms ++ [m]) := by
  induction h with
  | nil h => exact .cons (Int.lt_add_one_of_le h) hm (.nil (Int.le_refl _))
  | cons hlt hm' _ ih => exact .cons hlt hm' ih

theorem Ascending.reverse {top last : Int} {ms : List CANMessage} (h : Ascending top last ms) :
    ms = [] ∨ ∃ c m rest, ms.reverse = m :: rest ∧ last < c ∧ c ≤ top ∧
      encodeStatus (status c) = .ok m ∧
      ∀ m' ∈ rest, ∃ c' < c, encodeStatus (status c') = .ok m' := by
  induction h with
  | nil => exact .inl rfl
  | @cons last c m ms hlt hm h ih =>
    refine .inr ?_
    rcases ih with rfl | ⟨c', m', rest, hrev, hc', htop, hm', hrest⟩
    · exact ⟨c, m, [], rfl, hlt, h.le, hm, by simp⟩
    · refine ⟨c', m', rest ++ [m], by rw [List.reverse_cons, hrev, List.cons_append],
        Int.lt_trans hlt hc', htop, hm', fun d hd => ?_⟩
      rcases List.mem_append.1 hd with hd | hd
      · exact hrest d hd
      · exact ⟨c, hc', List.mem_singleton.1 hd ▸ hm⟩

/-! ### Delivery -/

theorem receive_lastCounter_status (v : VehicleNode PK) {c : Int} {m : CANMessage}
    (hm : encodeStatus (status c) = .ok m) :
    (v.receive m).1.replay.lastCounter = max v.replay.lastCounter c := by
  rw [receive_lastCounter, (statusCounter_status hm).2.2]
  rfl

theorem Ascending.deliver {top : Int} {ms : List CANMessage} {last : Int}
    (h : Ascending top last ms) {v : VehicleNode PK} (hv : v.replay.lastCounter = last) :
    (∀ e ∈ receiver.log v ms, Valid e.2) ∧ (receiver.run v ms).replay.lastCounter ≤ top := by
  induction h generalizing v with
  | nil h =>
    rw [hv.symm] at h
    exact ⟨by simp, h⟩
  | @cons last c m ms hlt hm _ ih =>
    have hlast : (v.receive m).1.replay.lastCounter = c := by
      rw [receive_lastCounter_status v hm, hv]
      exact max_eq_right (Int.le_of_lt hlt)
    obtain ⟨hvalid, hle⟩ := ih hlast
    rw [Mealy.log_cons, List.forall_mem_cons]
    exact ⟨⟨(valid_status_iff v hm).2 (hv ▸ hlt), hvalid⟩, hle⟩

theorem receive_replay (v : VehicleNode PK) {c : Int} {m : CANMessage}
    (hm : encodeStatus (status c) = .ok m) (hc : c ≤ v.replay.lastCounter) :
    v.receive m = (v, .ok .replay) := by
  obtain ⟨hid, hdec, -⟩ := statusCounter_status hm
  have hle : (status c).rounded.counter ≤ v.replay.lastCounter := hc
  rw [receive_status v hid, handleStatus_ok v hdec, if_pos hle]

theorem deliver_replays {ms : List CANMessage} (v : VehicleNode PK)
    (h : ∀ m ∈ ms, ∃ c ≤ v.replay.lastCounter, encodeStatus (status c) = .ok m) :
    (∀ e ∈ receiver.log v ms, e.2 = .ok .replay) ∧ receiver.run v ms = v := by
  induction ms with
  | nil => exact ⟨by simp, rfl⟩
  | cons m ms ih =>
    obtain ⟨⟨c, hc, hm⟩, hms⟩ := List.forall_mem_cons.1 h
    have hstep : receiver.step v m = (v, .ok .replay) := receive_replay v hm hc
    obtain ⟨hreplays, hrun⟩ := ih hms
    rw [Mealy.log_cons, Mealy.run_cons, hstep, List.forall_mem_cons]
    exact ⟨⟨rfl, hreplays⟩, hrun⟩

/-- The first one is `VALID`, the others are taken for replays. -/
def FirstValid : List (CANMessage × Except Err Report) → Prop
  | [] => True
  | e :: rest => Valid e.2 ∧ ∀ e' ∈ rest, e'.2 = .ok .replay

theorem Ascending.deliver_reverse {top : Int} {ms : List CANMessage} {v : VehicleNode PK}
    (h : Ascending top v.replay.lastCounter ms) :
    FirstValid (receiver.log v ms.reverse) ∧
      (receiver.run v ms.reverse).replay.lastCounter ≤ top := by
  rcases h.reverse with rfl | ⟨c, m, rest, hrev, hc, htop, hm, hrest⟩
  · exact ⟨trivial, h.le⟩
  · have hlast : (receiver.step v m).1.replay.lastCounter = c := by
      refine (receive_lastCounter_status v hm).trans ?_
      exact max_eq_right (Int.le_of_lt hc)
    obtain ⟨hreplays, hrun⟩ := deliver_replays (receiver.step v m).1 fun m' hm' => by
      obtain ⟨c', hlt, hm'⟩ := hrest m' hm'
      exact ⟨c', hlast.symm ▸ Int.le_of_lt hlt, hm'⟩
    rw [hrev, Mealy.log_cons, Mealy.run_cons, hrun, hlast]
    exact ⟨⟨(valid_status_iff v hm).2 hc, hreplays⟩, htop⟩

/-! ### Any turns -/

/-- What the vehicle says after a turn: everything released in order is `VALID`, and of what is
released in reverse the first one. -/
def Answered : Turn → List (CANMessage × Except Err Report) → Prop
  | .releaseAll true _, reports => FirstValid reports
  | _, reports => ∀ e ∈ reports, Valid e.2

theorem turn_answered (s : Channel π PK) (turn : Turn)
    (h : Ascending s.battery.counter.counter s.vehicle.replay.lastCounter s.attack.buffer)
    (hnonneg : 0 ≤ s.battery.counter.counter)
    (hlt : turn = .sendStatus → s.battery.counter.counter + 1 < 2 ^ 32) :
    (∃ reports, (delayed.step s turn).2 = .ok reports ∧ Answered turn reports) ∧
      (delayed.step s turn).1.battery.counter.counter = s.battery.counter.counter +
        (if turn = .sendStatus then 1 else 0) ∧
      Ascending (delayed.step s turn).1.battery.counter.counter
        (delayed.step s turn).1.vehicle.replay.lastCounter
        (delayed.step s turn).1.attack.buffer := by
  obtain ⟨battery, attack, vehicle⟩ := s
  dsimp only at h hnonneg hlt
  cases turn with
  | sendStatus =>
    obtain ⟨m, hm⟩ := encodeStatus_status (c := battery.counter.counter + 1) (by omega) (hlt rfl)
    have hstep : delayed.step (⟨battery, attack, vehicle⟩ : Channel π PK) .sendStatus =
        (⟨battery.sendStatus.1, attack.intercept m, vehicle⟩, .ok []) := by
      have hsend : battery.sendStatus = (battery.sendStatus.1, .ok m) := Prod.ext rfl hm
      dsimp only [delayed]
      rw [hsend]
    rw [hstep]
    exact ⟨⟨[], rfl, by simp [Answered]⟩, rfl, h.snoc hm⟩
  | releaseAll reverse dropLast =>
    obtain ⟨kept, hkept, -, heq⟩ := releaseAll_cases attack reverse dropLast
    have hstep : delayed.step (⟨battery, attack, vehicle⟩ : Channel π PK)
        (.releaseAll reverse dropLast) =
          Channel.deliver ⟨battery, attack, vehicle⟩ ⟨[]⟩
            (if reverse then kept.reverse else kept) := by
      show Channel.deliver _ (attack.releaseAll reverse dropLast).1
        (attack.releaseAll reverse dropLast).2 = _
      rw [heq]
    have hascending := h.sublist hkept
    rw [hstep]
    cases reverse with
    | true =>
      obtain ⟨hfirst, hle⟩ := hascending.deliver_reverse
      exact ⟨⟨_, rfl, hfirst⟩, (Int.add_zero _).symm, .nil hle⟩
    | false =>
      obtain ⟨hvalid, hle⟩ := hascending.deliver rfl
      exact ⟨⟨_, rfl, hvalid⟩, (Int.add_zero _).symm, .nil hle⟩
  | releaseOne =>
    obtain ⟨buffer⟩ := attack
    cases h with
    | nil hle => exact ⟨⟨[], rfl, by simp [Answered]⟩, (Int.add_zero _).symm, .nil hle⟩
    | @cons _ c m ms hc hm hrest =>
      have hlast : (vehicle.receive m).1.replay.lastCounter = c := by
        rw [receive_lastCounter_status vehicle hm]
        exact max_eq_right (Int.le_of_lt hc)
      refine ⟨⟨_, rfl, ?_⟩, (Int.add_zero _).symm, ?_⟩
      · intro e he
        obtain rfl : e = (m, (vehicle.receive m).2) := List.mem_singleton.1 he
        exact (valid_status_iff vehicle hm).2 hc
      · exact hrest.lower (Int.le_of_eq hlast)
  | clear => exact ⟨⟨[], rfl, by simp [Answered]⟩, (Int.add_zero _).symm, .nil h.le⟩

/-- **What the vehicle sees through a delay**: over any turns in which the battery sends less than
`2 ^ 32` statuses, every status released in order is reported `VALID`, and of a reversed batch the
newest one, the others being taken for replays. -/
theorem delayed_reports (root : Option PK) (battery : Battery π) (turns : List Turn)
    (hturns : turns.count .sendStatus < 2 ^ 32) :
    ∀ e ∈ delayed.log ⟨{ battery }, {}, .init root⟩ turns,
      ∃ reports, e.2 = .ok reports ∧ Answered e.1 reports := by
  have hrun : ∀ (turns : List Turn) (s : Channel π PK),
      Ascending s.battery.counter.counter s.vehicle.replay.lastCounter s.attack.buffer →
        0 ≤ s.battery.counter.counter →
        s.battery.counter.counter + turns.count .sendStatus < 2 ^ 32 →
        ∀ e ∈ delayed.log s turns, ∃ reports, e.2 = .ok reports ∧ Answered e.1 reports := by
    intro turns
    induction turns with
    | nil => simp
    | cons turn turns ih =>
      intro s h hnonneg hlt
      rw [List.count_cons] at hlt
      obtain ⟨hanswer, hcounter, hascending⟩ := turn_answered s turn h hnonneg fun hturn => by
        rw [hturn] at hlt
        simp only [beq_self_eq_true, if_true] at hlt
        omega
      rw [Mealy.log_cons, List.forall_mem_cons]
      refine ⟨hanswer, ih _ hascending ?_ ?_⟩
      · rw [hcounter]
        split <;> omega
      · rw [hcounter]
        by_cases hturn : turn = .sendStatus
        · simp only [hturn, beq_self_eq_true, if_true] at hlt ⊢
          omega
        · simp only [beq_iff_eq, hturn, if_false] at hlt ⊢
          omega
  refine hrun turns _ (.nil (Int.le_refl 0)) (Int.le_refl 0) ?_
  rw [Int.zero_add]
  exact_mod_cast hturns

/-- Three statuses come out in reverse, then one in order. -/
theorem delayed_reports_reversed :
    ∃ log, delayed.log
        (⟨{ battery := plainBattery }, {}, .init (some 7)⟩ :
          Channel (SoftwareProvider plainEcdsa) UInt8)
        [.sendStatus, .sendStatus, .sendStatus, .releaseAll true false, .sendStatus, .releaseOne] =
          log ∧
      ∀ e ∈ log, ∃ reports, e.2 = .ok reports ∧ Answered e.1 reports :=
  ⟨_, rfl, delayed_reports (some 7) plainBattery _ (by decide)⟩

end BattLock.DelayAttack
