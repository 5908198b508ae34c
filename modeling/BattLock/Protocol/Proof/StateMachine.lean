import BattLock.Lib.Greedy
import BattLock.Lib.Mealy
import BattLock.Protocol.StateMachine
import Mathlib.Data.List.DropRight

/-!
# The state as a function of the calls

The machine takes the next of its five transitions whenever it is called and ignores the others,
so its state is the greedy index of the calls since the last reset in the handshake order
(`value_run`): the number of transitions that have come in order (`state_of_calls`).
-/

namespace BattLock.BattLockStateMachine

/-- A call of one of the machine's methods. -/
inductive Call
  | getState
  | helloReceived
  | certificateVerified
  | challengeSent
  | authenticated
  | sessionEstablished
  | reset
  | telemetryAllowed
deriving DecidableEq

/-- What a call returns. -/
inductive Returned
  | state (s : ConnectionState)
  | bool (b : Bool)
  | none
deriving DecidableEq

/-- A transition and its verdict. -/
def returning : BattLockStateMachine × Bool → BattLockStateMachine × Returned
  | (self, b) => (self, .bool b)

/-- The machine under calls of its methods. -/
def machine : Mealy BattLockStateMachine Call Returned where
  step self
    | .getState => (self, .state self.state)
    | .helloReceived => returning self.helloReceived
    | .certificateVerified => returning self.certificateVerified
    | .challengeSent => returning self.challengeSent
    | .authenticated => returning self.authenticated
    | .sessionEstablished => returning self.sessionEstablished
    | .reset => (self.reset, .none)
    | .telemetryAllowed => (self, .bool self.telemetryAllowed)

/-- The transitions in the order of the handshake. -/
def order : List Call :=
  [.helloReceived, .certificateVerified, .challengeSent, .authenticated, .sessionEstablished]

/-- The calls after the last reset. -/
def sinceReset (calls : List Call) : List Call := calls.rtakeWhile (· ≠ .reset)

theorem sinceReset_concat (calls : List Call) (call : Call) :
    sinceReset (calls ++ [call]) = if call = .reset then [] else sinceReset calls ++ [call] := by
  rw [sinceReset, List.rtakeWhile_concat, ← sinceReset]
  by_cases hreset : call = .reset <;> simp [hreset]

/-- **One call**: it takes the next element of the order, or nothing, or it resets. -/
theorem value_step (self : BattLockStateMachine) (call : Call) :
    (machine.step self call).1.state.value =
      if call = .reset then 0 else Greedy.next order self.state.value call := by
  obtain ⟨state⟩ := self
  cases state <;> cases call <;> rfl

theorem value_injective {s s' : ConnectionState} (h : s.value = s'.value) : s = s' := by
  cases s <;> cases s' <;> first | rfl | cases h

/-- A transition returns `True` exactly when it goes one further, and otherwise it does nothing. -/
theorem step_order (self : BattLockStateMachine) {call : Call} (h : call ∈ order) :
    ((machine.step self call).2 = .bool true ↔
        (machine.step self call).1.state.value = self.state.value + 1) ∧
      ((machine.step self call).2 ≠ .bool true →
        machine.step self call = (self, .bool false)) := by
  obtain ⟨state⟩ := self
  simp only [order, List.mem_cons, List.not_mem_nil, or_false] at h
  rcases h with rfl | rfl | rfl | rfl | rfl <;> cases state <;> decide

/-- **A run**: the state is the greedy index of the calls since the last reset. -/
theorem value_run (calls : List Call) :
    (machine.run {} calls).state.value = Greedy.index order (sinceReset calls) := by
  induction calls using List.reverseRecOn with
  | nil => rfl
  | append_singleton calls call ih =>
    rw [Mealy.run_append, Mealy.run_cons, Mealy.run_nil, value_step, ih, sinceReset_concat]
    split
    · rfl
    · rw [Greedy.index_concat]

/-- **The state after any calls**: its index is the length of the longest part of the handshake
that has come in order since the last reset. So telemetry is allowed exactly when all of it has,
and a transition returns `True` exactly when it extends that part. -/
theorem state_of_calls (calls : List Call) :
    (List.Sublist (order.take (machine.run {} calls).state.value) (sinceReset calls) ∧
        ∀ k ≤ order.length, List.Sublist (order.take k) (sinceReset calls) →
          k ≤ (machine.run {} calls).state.value) ∧
      ((machine.run {} calls).telemetryAllowed = true ↔
        List.Sublist order (sinceReset calls)) ∧
      ∀ call ∈ order,
        ((machine.step (machine.run {} calls) call).2 = .bool true ↔
          (machine.step (machine.run {} calls) call).1.state.value =
            (machine.run {} calls).state.value + 1) ∧
        ((machine.step (machine.run {} calls) call).2 ≠ .bool true →
          machine.step (machine.run {} calls) call = (machine.run {} calls, .bool false)) := by
  refine ⟨⟨?_, ?_⟩, ?_, fun call hcall => step_order _ hcall⟩
  · rw [value_run]
    exact Greedy.take_index_sublist order _
  · intro k hk h
    rw [value_run]
    exact Greedy.le_index order hk h
  · rw [Greedy.sublist_iff, ← value_run, telemetryAllowed, decide_eq_true_iff]
    constructor
    · intro h
      rw [h]
      rfl
    · exact fun h => value_injective h

/-- A handshake with calls out of order, and one after a reset. -/
example : ((machine.run {} [.helloReceived, .challengeSent, .certificateVerified, .reset,
    .helloReceived, .helloReceived]).state = .helloReceived) := by decide

end BattLock.BattLockStateMachine
