/-!
# The connection state machine

`protocol/state_machine.py`: five transitions, each allowed in one state only, and a reset.
-/

namespace BattLock

inductive ConnectionState
  | disconnected
  | helloReceived
  | certVerified
  | challengeSent
  | authenticated
  | activeSession
deriving DecidableEq

/-- The value of the enumeration member. -/
def ConnectionState.value : ConnectionState → Nat
  | disconnected => 0
  | helloReceived => 1
  | certVerified => 2
  | challengeSent => 3
  | authenticated => 4
  | activeSession => 5

structure BattLockStateMachine where
  state : ConnectionState := .disconnected
deriving DecidableEq

namespace BattLockStateMachine

/-- Go from one state to another, if the machine is in the first. -/
def advance (self : BattLockStateMachine) (source target : ConnectionState) :
    BattLockStateMachine × Bool :=
  if self.state = source then (⟨target⟩, true) else (self, false)

def helloReceived (self : BattLockStateMachine) : BattLockStateMachine × Bool :=
  self.advance .disconnected .helloReceived

def certificateVerified (self : BattLockStateMachine) : BattLockStateMachine × Bool :=
  self.advance .helloReceived .certVerified

def challengeSent (self : BattLockStateMachine) : BattLockStateMachine × Bool :=
  self.advance .certVerified .challengeSent

def authenticated (self : BattLockStateMachine) : BattLockStateMachine × Bool :=
  self.advance .challengeSent .authenticated

def sessionEstablished (self : BattLockStateMachine) : BattLockStateMachine × Bool :=
  self.advance .authenticated .activeSession

def reset (_ : BattLockStateMachine) : BattLockStateMachine := ⟨.disconnected⟩

def telemetryAllowed (self : BattLockStateMachine) : Bool := self.state = .activeSession

end BattLockStateMachine

end BattLock
