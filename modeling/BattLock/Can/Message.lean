import BattLock.Lib.Python

/-!
# CAN messages and identifiers

`can/can_message.py` and the identifier table of `can/can_ids.py`. The data of a message is not
bounded here: the eight-byte limit of Classic CAN is a check of `Transport.reassemble`, and the
simulation's single-frame messages exceed it.
-/

namespace BattLock

open Python

structure CANMessage where
  arbitrationId : Int
  data : Bytes
deriving DecidableEq, Inhabited, Repr

/-! ## Identifiers -/

namespace CanId

def authRequest : Int := 0x100
def nonce : Int := 0x101
def signature : Int := 0x102
def certificate : Int := 0x104
def sessionId : Int := 0x105

def batteryStatusA : Int := 0x200
def batteryStatusB : Int := 0x201
def batteryStatusC : Int := 0x202

/-- The single-frame status shares its identifier with `STATUS_A`. -/
def batteryStatus : Int := batteryStatusA

end CanId

/-! ## Fault flags -/

namespace Fault

def overvoltage : Nat := 0x0001
def undervoltage : Nat := 0x0002
def overcurrent : Nat := 0x0004
def overtemp : Nat := 0x0008
def commError : Nat := 0x0010
def authFailure : Nat := 0x0020

/-- All six flags. -/
def mask : Nat :=
  overvoltage ||| undervoltage ||| overcurrent ||| overtemp ||| commError ||| authFailure

end Fault

end BattLock
