import BattLock.Crypto.Connection
import BattLock.Crypto.Proof.Pairing

/-!
# The connection flag

`connected` should say that the port is open and that the last PING on it was answered. A call does
one of four things (`step_cases`): a connect that is answered sets the flag, `close` clears it, a
connect that opens the port and is not answered leaves a port that is missing or not confirmed, and
every other call changes nothing. The third leaves the flag as it is, so that the flag is right in
exactly the runs in which no such connect follows an answered one without a `close` in between
(`keepsLink_iff`). A key manager connects once and is safe (`keepsLink_of_one_connect`).
-/

namespace BattLock

open Python

namespace PortATECC608

inductive Call
  | connect (env : Opening)
  | sign (data : Bytes) (resp : Except Err (List Char))
  | getPublicKey (resp : Except Err (List Char))
  | genkey (resp : Except Err (List Char))
  | close

/-- The bridge answers to the PING of a connect. -/
def Call.Answered (hasSerial : Bool) : Call → Prop
  | connect env => hasSerial = true ∧ env.opened = .ok () ∧ env.reset = .ok () ∧
      env.resp = .ok "PONG".toList
  | _ => False

/-- A connect opens the port, and what comes then is not the answer of a bridge. -/
def Call.Unanswered (hasSerial : Bool) : Call → Prop
  | connect env => hasSerial = true ∧ env.opened = .ok () ∧
      ¬ (env.reset = .ok () ∧ env.resp = .ok "PONG".toList)
  | _ => False

/-- The calls that need a connection. -/
def Call.Guarded : Call → Prop
  | sign _ _ | getPublicKey _ | genkey _ => True
  | connect _ | close => False

/-- `_ser` is an open port whose last PING was answered. -/
def Linked (self : PortATECC608) : Prop :=
  ∃ ser, self.ser = some ser ∧ ser.isOpen = true ∧ ser.lastPing = some "PONG".toList

/-- The flag is right. -/
def Confirmed (self : PortATECC608) : Prop := self.connected = true → self.Linked

end PortATECC608

/-- A call ends at its check of the flag. -/
def SerialATECC608.Returned.AtCheck {PK : Type} : Returned PK → Prop
  | signature result => result = .error (.runtimeError "ATECC608: call connect() first")
  | key result => result = .error (.runtimeError "ATECC608: call connect() first")
  | done result => result = .error (.runtimeError "ATECC608: call connect() first")

namespace PortATECC608

open SerialATECC608 (Returned)

section
variable {PK : Type} (hasSerial : Bool) (fromEncodedPoint : Bytes → Except Err PK)

/-- The object under calls of its methods. -/
def machine : Mealy PortATECC608 Call (Returned PK) where
  step self
    | .connect env => ((self.connect hasSerial env).1, .done (self.connect hasSerial env).2)
    | .sign data resp => ((self.sign data resp).1, .signature (self.sign data resp).2)
    | .getPublicKey resp => ((self.getPublicKey fromEncodedPoint resp).1,
        .key (self.getPublicKey fromEncodedPoint resp).2)
    | .genkey resp => ((self.genkey resp).1, .done (self.genkey resp).2)
    | .close => (self.close, .done (.ok ()))

/-- After every call of a run the flag is right, and a call without a confirmed link ends at its
check. -/
def KeepsLink (port : String) (calls : List Call) : Prop :=
  (∀ before, before <+: calls →
    ((machine hasSerial fromEncodedPoint).run { port } before).Confirmed) ∧
  ∀ before call, before ++ [call] <+: calls → call.Guarded →
    ¬ ((machine hasSerial fromEncodedPoint).run { port } before).Linked →
    ((machine hasSerial fromEncodedPoint).step
      ((machine hasSerial fromEncodedPoint).run { port } before) call).2.AtCheck

/-! ## One call -/

theorem query_fst {line : List Char} (h : line ≠ "PING".toList) (self : PortATECC608)
    (resp : Except Err (List Char)) : (self.query line resp).1 = self := by
  unfold query
  cases hser : self.ser with
  | none => rfl
  | some ser =>
    dsimp only
    rw [Port.asked, if_neg h, ← hser]

theorem signRequest_ne_ping (data : Bytes) :
    SerialATECC608.signRequest data ≠ "PING".toList := by
  intro h
  have hhead : 'S' = 'P' := (List.cons.inj h).1
  exact absurd hhead (by decide)

theorem sign_fst (self : PortATECC608) (data : Bytes) (resp : Except Err (List Char)) :
    (self.sign data resp).1 = self := by
  unfold sign
  split
  · rfl
  · split
    · rfl
    · exact query_fst (signRequest_ne_ping data) self resp

theorem getPublicKey_fst (self : PortATECC608) (resp : Except Err (List Char)) :
    (self.getPublicKey fromEncodedPoint resp).1 = self := by
  unfold getPublicKey
  split
  · rfl
  · exact query_fst (by decide) self resp

theorem genkey_fst (self : PortATECC608) (resp : Except Err (List Char)) :
    (self.genkey resp).1 = self := by
  have hquery : (self.query "GENKEY".toList resp).1 = self := query_fst (by decide) self resp
  unfold genkey
  split
  · rfl
  · split
    · rename_i heq
      rw [heq] at hquery
      exact hquery
    · rename_i heq
      rw [heq] at hquery
      split
      · exact hquery
      · exact hquery

theorem connect_cases (self : PortATECC608) (env : Opening) :
    ((Call.connect env).Answered hasSerial ∧
      (self.connect hasSerial env).1 =
        { self with ser := some ⟨true, some "PONG".toList⟩, connected := true }) ∨
    ((Call.connect env).Unanswered hasSerial ∧ ∃ ser, (self.connect hasSerial env).1 =
      { self with ser } ∧ ∀ p, ser = some p → p.lastPing ≠ some "PONG".toList) ∨
    (¬ (Call.connect env).Answered hasSerial ∧ ¬ (Call.connect env).Unanswered hasSerial ∧
      (self.connect hasSerial env).1 = self) := by
  obtain ⟨opened, reset, resp⟩ := env
  unfold connect
  by_cases hserial : ¬ hasSerial = true
  · rw [if_pos hserial]
    exact .inr (.inr ⟨fun h => hserial h.1, fun h => hserial h.1, rfl⟩)
  rw [if_neg hserial]
  rw [not_not] at hserial
  cases opened with
  | error e =>
    refine .inr (.inr ⟨?_, ?_, rfl⟩)
    · intro h
      obtain ⟨-, ⟨⟩, -⟩ := h
    · intro h
      obtain ⟨-, ⟨⟩, -⟩ := h
  | ok _ =>
    cases reset with
    | error e =>
      refine .inr (.inl ⟨⟨hserial, rfl, fun h => nomatch h.1⟩, some .opened, rfl, ?_⟩)
      rintro p ⟨⟩
      decide
    | ok _ =>
      cases resp with
      | error e =>
        refine .inr (.inl ⟨⟨hserial, rfl, fun h => nomatch h.2⟩, some ⟨true, none⟩, rfl, ?_⟩)
        rintro p ⟨⟩
        decide
      | ok resp =>
        by_cases hpong : resp = "PONG".toList
        · subst hpong
          exact .inl ⟨⟨hserial, rfl, rfl, rfl⟩, rfl⟩
        · refine .inr (.inl ⟨⟨hserial, rfl, fun h => hpong (Except.ok.inj h.2)⟩, none, ?_, ?_⟩)
          · dsimp only [query]
            rw [if_pos hpong]
            rfl
          · rintro p ⟨⟩

/-- **What a call does.** -/
theorem step_cases (self : PortATECC608) (call : Call) :
    (call.Answered hasSerial ∧ ((machine hasSerial fromEncodedPoint).step self call).1 =
      { self with ser := some ⟨true, some "PONG".toList⟩, connected := true }) ∨
    (call.Unanswered hasSerial ∧
      ∃ ser, ((machine hasSerial fromEncodedPoint).step self call).1 = { self with ser } ∧
        ∀ p, ser = some p → p.lastPing ≠ some "PONG".toList) ∨
    (call = .close ∧ ((machine hasSerial fromEncodedPoint).step self call).1 =
      { self with ser := none, connected := false }) ∨
    (¬ call.Answered hasSerial ∧ ¬ call.Unanswered hasSerial ∧ call ≠ .close ∧
      ((machine hasSerial fromEncodedPoint).step self call).1 = self) := by
  cases call with
  | connect env =>
    rcases connect_cases hasSerial self env with h | h | ⟨hanswered, hunanswered, heq⟩
    · exact .inl h
    · exact .inr (.inl h)
    · exact .inr (.inr (.inr ⟨hanswered, hunanswered, Call.noConfusion, heq⟩))
  | sign data resp =>
    exact .inr (.inr (.inr ⟨not_false, not_false, Call.noConfusion, sign_fst self data resp⟩))
  | getPublicKey resp =>
    exact .inr (.inr (.inr ⟨not_false, not_false, Call.noConfusion,
      getPublicKey_fst fromEncodedPoint self resp⟩))
  | genkey resp =>
    exact .inr (.inr (.inr ⟨not_false, not_false, Call.noConfusion, genkey_fst self resp⟩))
  | close => exact .inr (.inr (.inl ⟨rfl, rfl⟩))

theorem connected_step (self : PortATECC608) (call : Call) :
    ((machine hasSerial fromEncodedPoint).step self call).1.connected = true ↔
      call.Answered hasSerial ∨ self.connected = true ∧ ¬ call = .close := by
  rcases step_cases hasSerial fromEncodedPoint self call with
    ⟨hanswered, heq⟩ | ⟨hunanswered, ser, heq, -⟩ | ⟨rfl, heq⟩ | ⟨hanswered, -, hclose, heq⟩
  · rw [heq]
    exact iff_of_true rfl (.inl hanswered)
  · rw [heq]
    cases call with
    | connect env =>
      have hanswered : ¬ (Call.connect env).Answered hasSerial := fun h => hunanswered.2.2 h.2.2
      simp [hanswered]
    | _ => exact hunanswered.elim
  · rw [heq]
    simp [Call.Answered]
  · rw [heq]
    simp [hanswered, hclose]

/-- **One call keeps the flag right**, unless it is set and the call is a connect that opens the
port and is not answered. -/
theorem Confirmed.step_iff {self : PortATECC608} (h : self.Confirmed) (call : Call) :
    ((machine hasSerial fromEncodedPoint).step self call).1.Confirmed ↔
      ¬ (self.connected = true ∧ call.Unanswered hasSerial) := by
  rcases step_cases hasSerial fromEncodedPoint self call with
    ⟨hanswered, heq⟩ | ⟨hunanswered, ser, heq, hser⟩ | ⟨rfl, heq⟩ | ⟨-, hunanswered, -, heq⟩
  · rw [heq]
    refine iff_of_true (fun _ => ⟨_, rfl, rfl, rfl⟩) ?_
    intro h
    obtain ⟨-, hunanswered⟩ := h
    cases call with
    | connect env => exact hunanswered.2.2 hanswered.2.2
    | _ => exact hunanswered
  · rw [heq]
    constructor
    · intro hconfirmed h
      obtain ⟨hconnected, -⟩ := h
      obtain ⟨p, hp, -, hping⟩ := hconfirmed hconnected
      exact hser p hp hping
    · intro hnot hconnected
      exact absurd ⟨hconnected, hunanswered⟩ hnot
  · rw [heq]
    exact iff_of_true (fun hconnected => nomatch hconnected) (fun hboth => hboth.2)
  · rw [heq]
    exact iff_of_true h (fun hboth => hunanswered hboth.2)

theorem atCheck_of_not_connected {self : PortATECC608} (h : ¬ self.connected = true) {call : Call}
    (hcall : call.Guarded) : ((machine hasSerial fromEncodedPoint).step self call).2.AtCheck := by
  cases call with
  | connect env => exact hcall.elim
  | sign data resp =>
    show (self.sign data resp).2 = _
    rw [sign, if_pos h]
  | getPublicKey resp =>
    show (self.getPublicKey fromEncodedPoint resp).2 = _
    rw [getPublicKey, if_pos h]
  | genkey resp =>
    show (self.genkey resp).2 = _
    rw [genkey, if_pos h]
  | close => exact hcall.elim

/-! ## Runs -/

theorem connected_run_iff (port : String) (calls : List Call) :
    ((machine hasSerial fromEncodedPoint).run { port } calls).connected = true ↔
      ∃ earlier call later, calls = earlier ++ call :: later ∧ call.Answered hasSerial ∧
        .close ∉ later := by
  have hflag := (machine hasSerial fromEncodedPoint).flag_run_iff
    (P := fun self => self.connected = true) (connected_step hasSerial fromEncodedPoint)
    { port } calls
  have hclose : ∀ later : List Call, (∀ j ∈ later, ¬ j = .close) ↔ .close ∉ later := by
    intro later
    exact ⟨fun h hmem => h _ hmem rfl, fun h j hj hjclose => h (hjclose ▸ hj)⟩
  rw [hflag]
  simp only [hclose, Bool.false_eq_true, false_and, or_false]

/-- The flag is right after every call of a run, if and only if no call makes it wrong. -/
theorem confirmed_run_iff (port : String) (calls : List Call) :
    (∀ before, before <+: calls →
      ((machine hasSerial fromEncodedPoint).run { port } before).Confirmed) ↔
    ∀ before call, before ++ [call] <+: calls →
      ¬ (((machine hasSerial fromEncodedPoint).run { port } before).connected = true ∧
        call.Unanswered hasSerial) := by
  constructor
  · intro h before call hprefix
    have hbefore := h before ((List.prefix_append _ _).trans hprefix)
    have hafter := h _ hprefix
    rw [Mealy.run_append] at hafter
    exact (hbefore.step_iff hasSerial fromEncodedPoint call).1 hafter
  · intro h before
    induction before using List.reverseRecOn with
    | nil => exact fun _ hconnected => nomatch hconnected
    | append_singleton before call ih =>
      intro hprefix
      rw [Mealy.run_append]
      exact ((ih ((List.prefix_append _ _).trans hprefix)).step_iff hasSerial fromEncodedPoint
        call).2 (h before call hprefix)

/-- **The connection flag** is right throughout exactly the runs in which no connect opens the port
without being answered after one that was, unless the port was closed in between. -/
theorem keepsLink_iff (port : String) (calls : List Call) :
    KeepsLink hasSerial fromEncodedPoint port calls ↔
      ∀ earlier call between call' later,
        calls = earlier ++ call :: (between ++ call' :: later) → call.Answered hasSerial →
        .close ∉ between → ¬ call'.Unanswered hasSerial := by
  have hrun := confirmed_run_iff hasSerial fromEncodedPoint port calls
  constructor
  · rintro ⟨hconfirmed, -⟩ earlier call between call' later rfl hanswered hclose hunanswered
    refine hrun.1 hconfirmed (earlier ++ call :: between) call' ⟨later, by simp⟩ ⟨?_, hunanswered⟩
    exact (connected_run_iff hasSerial fromEncodedPoint port _).2
      ⟨earlier, call, between, rfl, hanswered, hclose⟩
  · intro h
    have hconfirmed := hrun.2 fun before call' hprefix => by
      intro hboth
      obtain ⟨hconnected, hunanswered⟩ := hboth
      obtain ⟨later, rfl⟩ := hprefix
      obtain ⟨earlier, call, between, rfl, hanswered, hclose⟩ :=
        (connected_run_iff hasSerial fromEncodedPoint port before).1 hconnected
      exact h earlier call between call' later (by simp) hanswered hclose hunanswered
    refine ⟨hconfirmed, fun before call hprefix hguarded hlinked => ?_⟩
    have hbefore := hconfirmed before ((List.prefix_append _ _).trans hprefix)
    exact atCheck_of_not_connected hasSerial fromEncodedPoint
      (fun hconnected => hlinked (hbefore hconnected)) hguarded

/-- A key manager connects once, when it is made. -/
theorem keepsLink_of_one_connect (port : String) (env : Opening) {calls : List Call}
    (h : ∀ call ∈ calls, ∀ env', call ≠ .connect env') :
    KeepsLink hasSerial fromEncodedPoint port (.connect env :: calls) := by
  rw [keepsLink_iff]
  intro earlier call between call' later heq _ _ hunanswered
  have hmem : call' ∈ calls := by
    cases earlier with
    | nil =>
      obtain ⟨-, rfl⟩ := List.cons.inj heq
      exact List.mem_append_right _ List.mem_cons_self
    | cons first earlier =>
      obtain ⟨-, rfl⟩ := List.cons.inj heq
      simp
  cases call' with
  | connect env' => exact h _ hmem env' rfl
  | _ => exact hunanswered

end

/-- The bridge answers the first connect and nothing answers the second: the flag stays, and a call
goes on to a port that is not there. -/
theorem not_keepsLink :
    ¬ KeepsLink true (fun raw => (.ok raw : Except Err Bytes)) "COM5"
      [.connect ⟨.ok (), .ok (), .ok "PONG".toList⟩, .connect ⟨.ok (), .ok (), .ok []⟩] ∧
    ((machine true (fun raw => (.ok raw : Except Err Bytes))).run {}
      [.connect ⟨.ok (), .ok (), .ok "PONG".toList⟩, .connect ⟨.ok (), .ok (), .ok []⟩]) =
        ⟨"COM5", none, true⟩ ∧
    ((⟨"COM5", none, true⟩ : PortATECC608).sign (List.replicate 32 0) (.ok [])).2 =
      .error .attributeError := by
  refine ⟨fun h => ?_, by decide, by decide⟩
  obtain ⟨ser, hser, -⟩ := h.1 _ (List.prefix_refl _) (by decide)
  cases hser

end PortATECC608

end BattLock
