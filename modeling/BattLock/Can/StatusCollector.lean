import BattLock.Can.Status

/-!
# The status collector

`can/status_collector.py`: buffers the frames of a telemetry round and emits a status when A, B
and C are all present. A call that raises leaves the buffer as it was when it raised.
-/

namespace BattLock

open Python

structure StatusCollector where
  a : Option CANMessage := none
  b : Option CANMessage := none
  c : Option CANMessage := none

namespace StatusCollector

def reset (_ : StatusCollector) : StatusCollector := {}

/-- A round is open and not yet complete. -/
def pending (self : StatusCollector) : Bool := self.a.isSome && (self.b.isNone || self.c.isNone)

/-- What `feed` does once the frame is buffered: emit the status if the round is complete. -/
def emit (self : StatusCollector) : StatusCollector × Except Err (Option BatteryStatus) :=
  match self.a, self.b, self.c with
  | some a, some b, some c =>
    match statusFromFrames a b c with
    | .ok status => (self.reset, .ok (some status))
    | .error e => (self, .error e)
  | _, _, _ => (self, .ok none)

/-- Feed one frame. -/
def feed (self : StatusCollector) (message : CANMessage) :
    StatusCollector × Except Err (Option BatteryStatus) :=
  if message.arbitrationId = CanId.batteryStatusA then
    emit { a := some message, b := none, c := none }
  else if message.arbitrationId = CanId.batteryStatusB then
    emit (if self.a.isSome then { self with b := some message } else self)
  else if message.arbitrationId = CanId.batteryStatusC then
    emit (if self.a.isSome then { self with c := some message } else self)
  else (self, .ok none)

end StatusCollector

end BattLock
