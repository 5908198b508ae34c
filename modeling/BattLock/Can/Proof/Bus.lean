import BattLock.Can.Proof.Reassemble
import BattLock.Lib.Mealy

/-!
# Messages on the bus

The bus keeps what is sent in order until it is received (`received_append_queue`). So the frames
of several messages can share it: whoever sends them and in whichever order, interleaved with each
other and with frames of other identifiers, a receiver that collects the frames of one identifier
has the message as soon as no frame of it is left in the queue (`bus_delivers`).
-/

namespace BattLock.Transport

open Python

namespace CANBus

inductive Call
  | send (message : CANMessage)
  | receive

def Call.message : Call → Option CANMessage
  | send message => some message
  | receive => none

/-- The bus under calls of its methods. -/
def machine : Mealy CANBus Call (Option CANMessage) where
  step bus
    | .send message => (bus.send message, none)
    | .receive => bus.receive

/-- What some calls send. -/
def sent (calls : List Call) : List CANMessage := calls.filterMap Call.message

/-- What they receive. -/
def received (bus : CANBus) (calls : List Call) : List CANMessage :=
  (machine.log bus calls).filterMap Prod.snd

/-- **First in, first out**: what was received and what is left is what was there and what was sent,
in order. -/
theorem received_append_queue (bus : CANBus) (calls : List Call) :
    bus.received calls ++ (machine.run bus calls).queue = bus.queue ++ sent calls := by
  induction calls generalizing bus with
  | nil => simp [received, sent]
  | cons call calls ih =>
    have ih := ih (machine.step bus call).1
    rw [Mealy.run_cons]
    cases call with
    | send message =>
      have hsent : sent (.send message :: calls) = message :: sent calls := rfl
      have hreceived : bus.received (.send message :: calls) =
          (bus.send message).received calls := rfl
      rw [hsent, hreceived]
      refine ih.trans ?_
      show bus.queue ++ [message] ++ sent calls = _
      rw [List.append_assoc, List.singleton_append]
    | receive =>
      obtain ⟨queue⟩ := bus
      cases queue with
      | nil => exact ih
      | cons message queue => exact congrArg (message :: ·) ih

end CANBus

/-! ## Messages -/

/-- A payload under its identifier. -/
structure LogicalMessage where
  arbitrationId : Int
  payload : Bytes

def LogicalMessage.frames (message : LogicalMessage) : Except Err (List CANMessage) :=
  fragment message.arbitrationId message.payload

theorem LogicalMessage.frames_ok {message : LogicalMessage} {frames : List CANMessage}
    (h : message.frames = .ok frames) :
    message.payload.length ≤ maxPayload ∧
      frames = (List.range (frameCount message.payload.length)).map
        (frameAt message.arbitrationId message.payload) := by
  have hle : message.payload.length ≤ maxPayload := by
    by_contra hgt
    rw [LogicalMessage.frames, fragment, if_pos (Nat.lt_of_not_le hgt)] at h
    cases h
  rw [LogicalMessage.frames, fragment_eq _ hle] at h
  exact ⟨hle, (Except.ok.inj h).symm⟩

theorem LogicalMessage.arbitrationId_of_mem {message : LogicalMessage} {frames : List CANMessage}
    (h : message.frames = .ok frames) : ∀ f ∈ frames, f.arbitrationId = message.arbitrationId := by
  obtain ⟨-, rfl⟩ := frames_ok h
  intro f hf
  obtain ⟨i, -, rfl⟩ := List.mem_map.1 hf
  rfl

theorem filter_flatten {messages : List LogicalMessage} {fragmented : List (List CANMessage)}
    (h : List.Forall₂ (fun message frames => message.frames = .ok frames) messages fragmented)
    (hids : (messages.map LogicalMessage.arbitrationId).Nodup) {message : LogicalMessage}
    (hmem : message ∈ messages) {frames : List CANMessage} (hframes : message.frames = .ok frames) :
    fragmented.flatten.filter (fun f => f.arbitrationId = message.arbitrationId) = frames := by
  have hother : ∀ {m : LogicalMessage} {fs : List CANMessage}, m.frames = .ok fs →
      m.arbitrationId ≠ message.arbitrationId →
        fs.filter (fun f => f.arbitrationId = message.arbitrationId) = [] := by
    intro m fs hfs hne
    refine List.filter_eq_nil_iff.2 fun f hf => ?_
    rw [LogicalMessage.arbitrationId_of_mem hfs f hf]
    simpa using hne
  have hnone : ∀ {ms : List LogicalMessage} {fss : List (List CANMessage)},
      List.Forall₂ (fun message frames => message.frames = .ok frames) ms fss →
        message.arbitrationId ∉ ms.map LogicalMessage.arbitrationId →
          fss.flatten.filter (fun f => f.arbitrationId = message.arbitrationId) = [] := by
    intro ms fss hfss
    induction hfss with
    | nil => simp
    | cons hm _ ih =>
      intro hnot
      rw [List.map_cons, List.mem_cons, not_or] at hnot
      rw [List.flatten_cons, List.filter_append, hother hm (Ne.symm hnot.1), ih hnot.2]
      rfl
  induction h with
  | nil => cases hmem
  | @cons m fs ms fss hm hrest ih =>
    rw [List.map_cons, List.nodup_cons] at hids
    rw [List.flatten_cons, List.filter_append]
    rcases List.mem_cons.1 hmem with rfl | hmem
    · obtain rfl := Except.ok.inj (hm.symm.trans hframes)
      rw [hnone hrest hids.1, List.append_nil]
      refine List.filter_eq_self.2 fun f hf => ?_
      simpa using LogicalMessage.arbitrationId_of_mem hm f hf
    · have hne : m.arbitrationId ≠ message.arbitrationId := by
        intro heq
        exact hids.1 (heq ▸ List.mem_map_of_mem hmem)
      rw [hother hm hne, ih hids.2 hmem]
      rfl

/-- **Messages share the bus**: in any run of sends and receives whose sends are the frames of some
messages under different identifiers, in any order and with any other frames between them, the
frames received of a message are joined to its payload once none of them is left in the queue. -/
theorem bus_delivers (calls : List CANBus.Call) (messages : List LogicalMessage)
    (others : List CANMessage) {fragmented : List (List CANMessage)}
    (hids : (messages.map LogicalMessage.arbitrationId).Nodup)
    (hothers : ∀ f ∈ others, ∀ message ∈ messages, f.arbitrationId ≠ message.arbitrationId)
    (hfragmented : messages.mapM LogicalMessage.frames = .ok fragmented)
    (hsent : (CANBus.sent calls).Perm (fragmented.flatten ++ others)) :
    ∀ message ∈ messages,
      (∀ f ∈ (CANBus.machine.run {} calls).queue, f.arbitrationId ≠ message.arbitrationId) →
        reassemble ((CANBus.received {} calls).filter
          fun f => f.arbitrationId = message.arbitrationId) = .ok message.payload := by
  intro message hmem hqueue
  have hforall := mapM_eq_ok.1 hfragmented
  obtain ⟨frames, hframes⟩ : ∃ frames, message.frames = .ok frames := by
    obtain ⟨i, hi, rfl⟩ := List.mem_iff_getElem.1 hmem
    exact ⟨_, (List.forall₂_iff_get.1 hforall).2 i hi (hforall.length_eq ▸ hi)⟩
  obtain ⟨hle, hframesAt⟩ := LogicalMessage.frames_ok hframes
  have hfifo := congrArg
    (List.filter fun f : CANMessage => f.arbitrationId = message.arbitrationId)
    (CANBus.received_append_queue {} calls)
  have hleft : (CANBus.machine.run {} calls).queue.filter
      (fun f => f.arbitrationId = message.arbitrationId) = [] :=
    List.filter_eq_nil_iff.2 fun f hf => by simpa using hqueue f hf
  have hother : others.filter (fun f => f.arbitrationId = message.arbitrationId) = [] :=
    List.filter_eq_nil_iff.2 fun f hf => by simpa using hothers f hf message hmem
  rw [List.filter_append, hleft, List.append_nil] at hfifo
  have hperm := hsent.filter fun f => f.arbitrationId = message.arbitrationId
  rw [List.filter_append, hother, List.append_nil, filter_flatten hforall hids hmem hframes,
    hframesAt] at hperm
  rw [hfifo]
  exact reassemble_perm hle hperm

/-- A challenge and a result under two identifiers, with a third frame between them. -/
theorem bus_delivers_interleaved :
    reassemble ((CANBus.received {} [
        .send ⟨0x101, [0, 9, 0, 1, 2, 3, 4, 5]⟩, .send ⟨0x103, [0, 1, 0, 7]⟩, .receive,
        .send ⟨0x7FF, [8]⟩, .send ⟨0x101, [1, 6, 7, 8, 9]⟩, .receive, .receive, .receive,
        .receive]).filter fun f => f.arbitrationId = 0x101) = .ok [1, 2, 3, 4, 5, 6, 7, 8, 9] := by
  have hfragmented : [LogicalMessage.mk 0x101 [1, 2, 3, 4, 5, 6, 7, 8, 9], ⟨0x103, [7]⟩].mapM
      LogicalMessage.frames = .ok [[⟨0x101, [0, 9, 0, 1, 2, 3, 4, 5]⟩, ⟨0x101, [1, 6, 7, 8, 9]⟩],
        [⟨0x103, [0, 1, 0, 7]⟩]] := by
    decide +kernel
  exact bus_delivers _ _ [⟨0x7FF, [8]⟩] (by decide) (by decide) hfragmented (by decide) _
    List.mem_cons_self (by decide)

end BattLock.Transport
