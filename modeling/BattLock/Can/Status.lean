import BattLock.Can.Message
import BattLock.Lib.Struct

/-!
# Battery status frames

`can/status_message.py` with the status parts of `can/encoder.py` and `can/decoder.py`: the
single 19-byte frame (`struct` format `IfffBBB`, native, on a little-endian host) and the three
eight-byte frames A (`<IBBBB`), B (`<ff`) and C (`<f4x`).
-/

namespace BattLock

open Python Python.Struct

/-- A Python `float` is a binary64 number. -/
abbrev PyFloat := Ieee.Binary64

structure BatteryStatus where
  counter : Int
  voltage : PyFloat
  current : PyFloat
  temperature : PyFloat
  soc : Int
  soh : Int
  faultFlags : Int
deriving DecidableEq

/-! ## The single frame -/

def encodeStatus (status : BatteryStatus) : Except Err CANMessage := do
  let counter ← packUInt 4 status.counter
  let voltage := packNativeFloat status.voltage
  let current := packNativeFloat status.current
  let temperature := packNativeFloat status.temperature
  let soc ← packUInt 1 status.soc
  let soh ← packUInt 1 status.soh
  let faultFlags ← packUInt 1 status.faultFlags
  return ⟨CanId.batteryStatus,
    counter ++ voltage ++ current ++ temperature ++ soc ++ soh ++ faultFlags⟩

def decodeStatus (message : CANMessage) : Except Err BatteryStatus :=
  let data := message.data
  if data.length = 19 then
    .ok {
      counter := unpackUInt (slice data 0 4)
      voltage := unpackFloat (slice data 4 8)
      current := unpackFloat (slice data 8 12)
      temperature := unpackFloat (slice data 12 16)
      soc := unpackUInt (slice data 16 17)
      soh := unpackUInt (slice data 17 18)
      faultFlags := unpackUInt (slice data 18 19) }
  else .error .structError

/-! ## The split frames -/

def encodeStatusA (status : BatteryStatus) : Except Err CANMessage := do
  let counter ← packUInt 4 status.counter
  let soc ← packUInt 1 status.soc
  let soh ← packUInt 1 status.soh
  let faultFlags ← packUInt 1 status.faultFlags
  let reserved ← packUInt 1 0
  return ⟨CanId.batteryStatusA, counter ++ soc ++ soh ++ faultFlags ++ reserved⟩

def encodeStatusB (status : BatteryStatus) : Except Err CANMessage := do
  let voltage ← packFloat status.voltage
  let current ← packFloat status.current
  return ⟨CanId.batteryStatusB, voltage ++ current⟩

def encodeStatusC (status : BatteryStatus) : Except Err CANMessage := do
  let temperature ← packFloat status.temperature
  return ⟨CanId.batteryStatusC, temperature ++ [0, 0, 0, 0]⟩

/-- The part of a status that frame A carries. -/
structure StatusA where
  counter : Int
  soc : Int
  soh : Int
  faultFlags : Int

structure StatusB where
  voltage : PyFloat
  current : PyFloat

structure StatusC where
  temperature : PyFloat

def decodeStatusA (message : CANMessage) : Except Err StatusA :=
  let data := message.data
  if data.length = 8 then
    .ok ⟨unpackUInt (slice data 0 4), unpackUInt (slice data 4 5), unpackUInt (slice data 5 6),
      unpackUInt (slice data 6 7)⟩
  else .error .structError

def decodeStatusB (message : CANMessage) : Except Err StatusB :=
  let data := message.data
  if data.length = 8 then .ok ⟨unpackFloat (slice data 0 4), unpackFloat (slice data 4 8)⟩
  else .error .structError

/-- The reserved bytes are not looked at. -/
def decodeStatusC (message : CANMessage) : Except Err StatusC :=
  let data := slice message.data 0 4
  if data.length = 4 then .ok ⟨unpackFloat data⟩ else .error .structError

def statusFromFrames (statusA statusB statusC : CANMessage) : Except Err BatteryStatus := do
  let a ← decodeStatusA statusA
  let b ← decodeStatusB statusB
  let c ← decodeStatusC statusC
  return {
    counter := a.counter
    voltage := b.voltage
    current := b.current
    temperature := c.temperature
    soc := a.soc
    soh := a.soh
    faultFlags := a.faultFlags }

end BattLock
