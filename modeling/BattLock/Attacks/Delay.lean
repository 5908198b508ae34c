import BattLock.Can.Simulation.BatteryNode
import BattLock.Can.Simulation.VehicleNode

/-!
# The delay attack

`attacks/delay_attack.py`: a buffer of intercepted messages, released in order or reversed, with or
without the last one, or dropped. `delayed` puts it between the nodes of `can/simulation`: the
battery's status frames are intercepted, and what is released is delivered to the vehicle.
-/

namespace BattLock

open Python

structure DelayAttack where
  buffer : List CANMessage := []

namespace DelayAttack

/-- Store a message instead of forwarding it. -/
def intercept (self : DelayAttack) (message : CANMessage) : DelayAttack :=
  ⟨self.buffer ++ [message]⟩

def releaseAll (self : DelayAttack) (reverse dropLast : Bool) : DelayAttack × List CANMessage :=
  if self.buffer.isEmpty then (self, [])
  else
    let messages := self.buffer
    let messages := if dropLast then messages.dropLast else messages
    let messages := if reverse then messages.reverse else messages
    (⟨[]⟩, messages)

/-- Release the oldest message. -/
def releaseOne (self : DelayAttack) : DelayAttack × Option CANMessage :=
  match self.buffer with
  | [] => (self, none)
  | msg :: buffer => (⟨buffer⟩, some msg)

/-- Drop all messages. -/
def clear (_ : DelayAttack) : DelayAttack := ⟨[]⟩

/-! ## Calls -/

inductive Call
  | intercept (message : CANMessage)
  | releaseAll (reverse dropLast : Bool)
  | releaseOne
  | clear
deriving DecidableEq

/-- The buffer under calls, each with the messages it releases. -/
def machine : Mealy DelayAttack Call (List CANMessage) where
  step self
    | .intercept message => (self.intercept message, [])
    | .releaseAll reverse dropLast => self.releaseAll reverse dropLast
    | .releaseOne => let (self, msg) := self.releaseOne; (self, msg.toList)
    | .clear => (self.clear, [])

/-! ## Between the nodes -/

inductive Turn
  /-- The battery sends a status, which is intercepted. -/
  | sendStatus
  | releaseAll (reverse dropLast : Bool)
  | releaseOne
  | clear
deriving DecidableEq

/-- A battery and a vehicle with the attack between them. -/
structure Channel (π PK : Type) where
  battery : BatteryNode π
  attack : DelayAttack := {}
  vehicle : VehicleNode PK

variable {π PK : Type}

/-- What is released is delivered; the answer is what the vehicle says of each message. -/
def Channel.deliver (s : Channel π PK) (attack : DelayAttack) (messages : List CANMessage) :
    Channel π PK × Except Err (List (CANMessage × Except Err Report)) :=
  ({ s with attack, vehicle := VehicleNode.receiver.run s.vehicle messages },
    .ok (VehicleNode.receiver.log s.vehicle messages))

def delayed : Mealy (Channel π PK) Turn (Except Err (List (CANMessage × Except Err Report))) where
  step s
    | .sendStatus =>
      match s.battery.sendStatus with
      | (battery, .error e) => ({ s with battery }, .error e)
      | (battery, .ok message) =>
        ({ s with battery, attack := s.attack.intercept message }, .ok [])
    | .releaseAll reverse dropLast =>
      let (attack, messages) := s.attack.releaseAll reverse dropLast
      s.deliver attack messages
    | .releaseOne =>
      let (attack, msg) := s.attack.releaseOne
      s.deliver attack msg.toList
    | .clear => ({ s with attack := s.attack.clear }, .ok [])

end DelayAttack

end BattLock
