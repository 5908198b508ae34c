import BattLock.Hardware.Battery
import BattLock.Hardware.Vehicle

/-!
# The two nodes on one bus

A battery and a vehicle that run their sketches on a bus with no other node. The bus loses
nothing and keeps the order, and a node does not receive its own frames: what one node sends
waits in a queue for the other. The nodes run at their own pace, and a frame may be under way
while `loop()` is called: an action says which node makes a call and whether its controller
reports a frame.
-/

namespace BattLock.Hardware

/-- The nodes after `setup()`, and the frames under way to each, the oldest first. -/
structure Network where
  battery : Battery := {}
  vehicle : Vehicle := {}
  toBattery : List CanFrame := []
  toVehicle : List CanFrame := []

/-- A node calls `loop()`. `receives` is false if no frame has arrived yet; the rest is as in
`VehicleInput`. -/
inductive Action
  | battery (receives : Bool)
  | vehicle (receives : Bool) (millis : Nat → UInt32) (beyond : Vector UInt8 2)

namespace Network

/-- What the controller reports, and the frames still under way. -/
def readMsgBuf (receives : Bool) (queue : List CanFrame) : Option CanFrame × List CanFrame :=
  if receives then (queue.head?, queue.tail) else (none, queue)

variable (C : Crypto) (rootCaPublicKey : Vector UInt8 65) (batteryCert : BattLockCert)
  (ecdsaSign : Vector UInt8 battlockNonceLen → Option (Vector UInt8 battlockSigLen))

def step (n : Network) : Action → Network × List Event
  | .battery receives =>
    let (frame, toBattery) := readMsgBuf receives n.toBattery
    let (battery, events) :=
      n.battery.loop batteryCert { frame, accept := fun _ => true, ecdsaSign }
    ({ n with battery, toBattery, toVehicle := n.toVehicle ++ Event.frames events }, events)
  | .vehicle receives millis beyond =>
    let (frame, toVehicle) := readMsgBuf receives n.toVehicle
    let (vehicle, events) :=
      n.vehicle.loop C rootCaPublicKey { frame, millis, accept := fun _ => true, beyond }
    ({ n with vehicle, toVehicle, toBattery := n.toBattery ++ Event.frames events }, events)

def machine : Mealy Network Action (List Event) where
  step n a := step C rootCaPublicKey batteryCert ecdsaSign n a

end Network

end BattLock.Hardware
