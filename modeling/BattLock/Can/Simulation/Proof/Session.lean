import BattLock.Can.Simulation.Proof.Authentication
import Mathlib.Data.List.Destutter

/-!
# Which session ids the vehicle accepts

The session handler remembers the last session id only, and does not look at whether a signature
was verified. A run accepts the delivered ids without their immediate repetitions
(`acceptedIds_eq`), from which follows when it keeps what the handler promises
(`session_once_iff`).
-/

namespace BattLock.VehicleNode

open Python

variable {SK PK : Type} (E : Ecdsa SK PK)

/-! ## One call -/

/-- The session id in a call, if it delivers a frame with one. -/
def Call.sessionId? : Call → Option Str
  | .receive m => if m.arbitrationId = CanId.sessionId then (decode m.data).toOption else none
  | _ => none

/-- The session id a call made the node accept. -/
def Outcome.acceptedId? : Outcome → Option Str
  | .report (.ok (.sessionReceived sessionId)) => some sessionId
  | _ => none

/-- The node is in the session `id`, if there is one. -/
def InSession (t : VehicleNode PK) : Option Str → Prop
  | none => t.sessionActive = false
  | some id => t.sessionActive = true ∧ t.sessionId = some id

theorem inSession_init (root : Option PK) : InSession (init root) none := rfl

theorem receive_of_no_sessionId {t : VehicleNode PK} {m : CANMessage}
    (h : (Call.receive m).sessionId? = none) :
    (t.receive m).1.sessionActive = t.sessionActive ∧ (t.receive m).1.sessionId = t.sessionId ∧
      ∀ id, (t.receive m).2 ≠ .ok (.sessionReceived id) := by
  by_cases hid : m.arbitrationId = CanId.sessionId
  · have hdec : ∃ e, decode m.data = .error e := by
      simp only [Call.sessionId?, if_pos hid] at h
      cases hd : decode m.data with
      | error e => exact ⟨e, rfl⟩
      | ok id => rw [hd] at h; cases h
    obtain ⟨e, he⟩ := hdec
    have hrec : t.receive m = (t, .error e) := by
      rw [receive, if_neg (by rw [hid]; decide), if_neg (by rw [hid]; decide), if_pos hid,
        handleSessionId, he]
    rw [hrec]
    exact ⟨rfl, rfl, fun id h => by cases h⟩
  · by_cases hst : m.arbitrationId = CanId.batteryStatus
    · rw [receive_status t hst]
      unfold handleStatus
      split
      · exact ⟨rfl, rfl, fun id h => by cases h⟩
      · split
        · exact ⟨rfl, rfl, fun id h => by cases h⟩
        · refine ⟨rfl, rfl, fun id h => ?_⟩
          simp only [Except.ok.injEq] at h
          split at h
          · unfold checkContent at h
            repeat' split at h
            all_goals cases h
          · cases h
    · unfold receive
      rw [if_neg hst, if_neg hid]
      split
      · refine ⟨rfl, rfl, fun id h => ?_⟩
        cases hb : decodeBatteryId m with
        | error e => rw [hb] at h; cases h
        | ok b => rw [hb] at h; cases h
      · exact ⟨rfl, rfl, fun id h => by cases h⟩

theorem acceptedId_eq_some {o : Outcome} {id : Str} :
    o.acceptedId? = some id ↔ o = .report (.ok (.sessionReceived id)) := by
  unfold Outcome.acceptedId?
  split <;> simp_all

section
variable [Interpreter]

theorem step_of_no_sessionId {t : VehicleNode PK} {call : Call} (h : call.sessionId? = none)
    {current : Option Str} (ht : InSession t current) :
    InSession ((machine E).step t call).1 current ∧
      ((machine E).step t call).2.acceptedId? = none := by
  cases call with
  | receive m =>
    obtain ⟨hactive, hid, hr⟩ := receive_of_no_sessionId (t := t) h
    refine ⟨?_, Option.eq_none_iff_forall_ne_some.2 fun id hs => ?_⟩
    · cases current with
      | none => exact hactive.trans ht
      | some id => exact ⟨hactive.trans ht.1, hid.trans ht.2⟩
    · exact hr id (by simpa [machine] using acceptedId_eq_some.1 hs)
  | receiveAndVerifyCertificate m now =>
    refine ⟨?_, rfl⟩
    simp only [machine, receiveAndVerifyCertificate]
    split
    · exact ht
    · cases current <;> exact ht
  | sendNonce nonce timestamp => exact ⟨by cases current <;> exact ht, rfl⟩
  | receiveAndVerifySignature m => exact ⟨ht, rfl⟩

theorem step_of_sessionId {t : VehicleNode PK} {call : Call} {id : Str}
    (h : call.sessionId? = some id) {current : Option Str} (ht : InSession t current) :
    InSession ((machine E).step t call).1 (some id) ∧
      ((machine E).step t call).2.acceptedId? = if current = some id then none else some id := by
  cases call with
  | receive m =>
    by_cases hid : m.arbitrationId = CanId.sessionId
    · have hdec : decode m.data = .ok id := by
        simp only [Call.sessionId?, if_pos hid] at h
        cases hd : decode m.data with
        | error e => rw [hd] at h; cases h
        | ok id' => rw [hd] at h; cases h; rfl
      have hstep : (machine E).step t (.receive m) =
          ((t.handleSessionId m).1, .report (t.handleSessionId m).2) := by
        simp only [machine, receive]
        rw [if_neg (by rw [hid]; decide), if_neg (by rw [hid]; decide), if_pos hid]
      rw [hstep, handleSessionId, hdec]
      cases current with
      | none =>
        have hactive : t.sessionActive = false := ht
        simp [hactive, InSession, Outcome.acceptedId?]
      | some id' =>
        obtain ⟨hactive, hcur⟩ := ht
        by_cases heq : id' = id
        · subst heq
          simp [hactive, hcur, InSession, Outcome.acceptedId?]
        · simp [hactive, hcur, heq, InSession, Outcome.acceptedId?]
    · simp [Call.sessionId?, hid] at h
  | receiveAndVerifyCertificate m now => cases h
  | sendNonce nonce timestamp => cases h
  | receiveAndVerifySignature m => cases h

/-- The session ids delivered by a sequence of calls. -/
def sessionIds (calls : List Call) : List Str := calls.filterMap Call.sessionId?

/-- The session ids accepted in a log. -/
def acceptedIds (log : List (Call × Outcome)) : List Str := log.filterMap fun e => e.2.acceptedId?

/-- In a session, the accepted ids are the delivered ones without immediate repetitions. -/
theorem acceptedIds_inSession : ∀ (calls : List Call) {t : VehicleNode PK} {id : Str},
    InSession t (some id) →
      id :: acceptedIds ((machine E).log t calls) = (sessionIds calls).destutter' (· ≠ ·) id
  | [], _, _, _ => rfl
  | call :: calls, t, id, ht => by
    cases hcall : call.sessionId? with
    | none =>
      obtain ⟨ht', ho⟩ := step_of_no_sessionId E hcall ht
      simp only [sessionIds, acceptedIds, Mealy.log_cons, List.filterMap_cons, hcall, ho]
      exact acceptedIds_inSession calls ht'
    | some id' =>
      obtain ⟨ht', ho⟩ := step_of_sessionId E hcall ht
      have ih := acceptedIds_inSession calls ht'
      simp only [sessionIds, acceptedIds, Mealy.log_cons, List.filterMap_cons, hcall, ho] at ih ⊢
      by_cases heq : id = id'
      · subst heq
        rw [if_pos rfl, List.destutter'_cons_neg _ (by simp)]
        exact ih
      · rw [if_neg (by simpa using heq), List.destutter'_cons_pos _ heq, ← ih]

theorem acceptedIds_eq : ∀ (calls : List Call) {t : VehicleNode PK}, InSession t none →
    acceptedIds ((machine E).log t calls) = (sessionIds calls).destutter (· ≠ ·)
  | [], _, _ => rfl
  | call :: calls, t, ht => by
    cases hcall : call.sessionId? with
    | none =>
      obtain ⟨ht', ho⟩ := step_of_no_sessionId E hcall ht
      simp only [sessionIds, acceptedIds, Mealy.log_cons, List.filterMap_cons, hcall, ho]
      exact acceptedIds_eq calls ht'
    | some id =>
      obtain ⟨ht', ho⟩ := step_of_sessionId E hcall ht
      have ih := acceptedIds_inSession E calls ht'
      simp only [sessionIds, acceptedIds, Mealy.log_cons, List.filterMap_cons, hcall, ho] at ih ⊢
      exact ih

/-- The node is in a session only if it accepted a session id. -/
def SessionAccepted (log : List (Call × Outcome)) (t : VehicleNode PK) : Prop :=
  InSession t none ∨ ∃ id, InSession t (some id) ∧ ∃ e ∈ log, ∃ id', e.2.acceptedId? = some id'

theorem sessionAccepted_step (log : List (Call × Outcome)) (t : VehicleNode PK) (call : Call)
    (h : SessionAccepted log t) :
    SessionAccepted (log ++ [(call, ((machine E).step t call).2)]) ((machine E).step t call).1 := by
  cases hcall : call.sessionId? with
  | none =>
    rcases h with h | ⟨id, h, e, he, id', ho⟩
    · exact .inl (step_of_no_sessionId E hcall h).1
    · exact .inr ⟨id, (step_of_no_sessionId E hcall h).1, e, List.mem_append_left _ he, id', ho⟩
  | some id =>
    rcases h with h | ⟨id', h, e, he, id'', ho⟩
    · obtain ⟨hsession, ho⟩ := step_of_sessionId E hcall h
      exact .inr ⟨id, hsession, _, List.mem_append_right _ List.mem_cons_self, id, ho⟩
    · exact .inr ⟨id, (step_of_sessionId E hcall h).1, e, List.mem_append_left _ he, id'', ho⟩

/-- **Sessions need no authentication**: a run accepts session ids only after a verified signature
and none of them twice exactly if no session id is delivered before one, and none comes back after
another one. -/
theorem session_once_iff (root : Option PK) (calls : List Call) :
    ((∀ before call outcome after id, (machine E).log (init root) calls =
          before ++ (call, outcome) :: after → outcome.acceptedId? = some id →
            Authenticated before) ∧
        (acceptedIds ((machine E).log (init root) calls)).Nodup) ↔
      (∀ earlier call later id, calls = earlier ++ call :: later → call.sessionId? = some id →
          Authenticated ((machine E).log (init root) earlier)) ∧
        ((sessionIds calls).destutter (· ≠ ·)).Nodup := by
  rw [acceptedIds_eq E calls (inSession_init root)]
  refine and_congr_left fun _ => ?_
  constructor
  · intro h earlier call later id hcalls hcall
    subst hcalls
    have hlog : (machine E).log (init root) (earlier ++ call :: later) =
        (machine E).log (init root) earlier ++
          (call, ((machine E).step ((machine E).run (init root) earlier) call).2) ::
            (machine E).log ((machine E).step ((machine E).run (init root) earlier) call).1
              later := by
      rw [Mealy.log_append, Mealy.log_cons]
    have hinv : SessionAccepted ((machine E).log (init root) earlier)
        ((machine E).run (init root) earlier) :=
      (machine E).log_inv (.inl (inSession_init root)) (sessionAccepted_step E) earlier
    rcases hinv with hnone | ⟨id', hsome, e, he, id'', ho⟩
    · -- no session yet: the id is accepted here
      exact h _ call _ _ id hlog (step_of_sessionId E hcall hnone).2
    · -- an id was accepted before, and that was after a verified signature
      obtain ⟨before, after, hsplit⟩ := List.append_of_mem he
      rw [hsplit, List.append_assoc, List.cons_append] at hlog
      obtain ⟨m, hm⟩ := h before e.1 e.2 _ id'' hlog ho
      exact ⟨m, hsplit ▸ List.mem_append_left _ hm⟩
  · intro h before call outcome after id hlog ho
    obtain ⟨earlier, later, rfl, rfl, hr, -⟩ := (machine E).log_eq_append_cons hlog
    cases hcall : call.sessionId? with
    | none =>
      have hinv : SessionAccepted ((machine E).log (init root) earlier)
          ((machine E).run (init root) earlier) :=
        (machine E).log_inv (.inl (inSession_init root)) (sessionAccepted_step E) earlier
      rw [hr] at ho
      rcases hinv with hnone | ⟨id', hsome, -⟩
      · rw [(step_of_no_sessionId E hcall hnone).2] at ho; cases ho
      · rw [(step_of_no_sessionId E hcall hsome).2] at ho; cases ho
    | some id' => exact h earlier call later id' rfl hcall

end

/-- A frame with a session id. -/
def sessionFrame (id : String) : CANMessage := ⟨CanId.sessionId, encodeChars id.toList⟩

open CPython in
/-- Without any signature, three ids are accepted and one of them twice. -/
theorem session_accepted_twice :
    let log := (machine plainEcdsa).log (init (some 7)) [.receive (sessionFrame "a1"),
      .receive (sessionFrame "b2"), .receive (sessionFrame "a1")]
    acceptedIds log = [Str.ofString "a1", Str.ofString "b2", Str.ofString "a1"] ∧
      ¬ Authenticated log := by
  refine ⟨by decide +kernel, ?_⟩
  intro h
  obtain ⟨m, hm⟩ := h
  have hcall := List.mem_map_of_mem (f := Prod.fst) hm
  rw [Mealy.map_fst_log] at hcall
  simp at hcall

end BattLock.VehicleNode
