import BattLock.Attacks.MitM
import BattLock.Can.Simulation.BatteryNode

/-!
# Attacks that put frames on the bus

The frames of `attacks/dos_attack.py`, `attacks/spoofing_attack.py`, `attacks/fuzzing_attack.py`,
`attacks/session_hijack_attack.py`, `attacks/injection_attack.py` and `attacks/evasion_attack.py`,
and the traffic (`Sent`) that these attacks and `attacks/mitm_attack.py` make with the battery's own
statuses. Random choices are arguments, and so are the measurements an evasive status is given: its
limits times its factors.
-/

namespace BattLock

open Python

namespace DoSAttack

def spam : CANMessage := ⟨0x7FF, encodeChars "SPAM".toList⟩

/-- `flood(count)`: always a thousand frames. -/
def flood (_count : Nat) : List CANMessage := List.replicate 1000 spam

end DoSAttack

def SpoofingAttack.createFakeIdentity : CANMessage :=
  ⟨CanId.authRequest, encodeChars "FAKE_BATTERY".toList⟩

namespace FuzzingAttack

/-- What `random_frame` draws: an identifier from `ID_MIN` to `ID_MAX` and up to eight bytes. -/
structure Draw where
  arbitrationId : Fin 0x800
  data : Bytes
  length_le : data.length ≤ 8

def randomFrame (draw : Draw) : CANMessage := ⟨draw.arbitrationId.val, draw.data⟩

/-- `flood(count)`, with a draw for each frame. -/
def flood (draws : List Draw) : List CANMessage := draws.map randomFrame

/-- The operation that `corrupt_status_frame` draws, with its draws; each is taken to the range it
is drawn from. -/
inductive Operation
  | flip (idx : Nat) (bit : Fin 8)
  | truncate (newLen : Nat)
  | extend (extra : Bytes) (hextra : 1 ≤ extra.length ∧ extra.length ≤ 8)
  /-- A draw for each position. -/
  | shuffle (draws : Nat → Nat)

/-- `x[i], x[j] = x[j], x[i]`. -/
def swap (x : Bytes) (i j : Nat) : Bytes := (x.set i (x.getD j 0)).set j (x.getD i 0)

/-- `random.shuffle`: from the last position `n` down to 1, each is swapped with one up to it. -/
def shuffled (draws : Nat → Nat) (data : Bytes) : Nat → Bytes
  | 0 => data
  | n + 1 => shuffled draws (swap data (n + 1) (draws (n + 1) % (n + 2))) n

def Operation.apply (data : Bytes) : Operation → Bytes
  | flip idx bit =>
    if data.length = 0 then data
    else data.modify (idx % data.length) (· ^^^ (1 <<< bit.val.toUInt8))
  | truncate newLen => data.take (newLen % (data.length - 1 + 1))
  | extend extra _ => (data ++ extra).take 8
  | shuffle draws => if 1 < data.length then shuffled draws data (data.length - 1) else data

def corruptStatusFrame (original : CANMessage) (operation : Operation) : CANMessage :=
  ⟨original.arbitrationId, operation.apply original.data⟩

end FuzzingAttack

/-- The captured frame is a SESSION_ID frame: `capture` refuses others. -/
structure SessionHijackAttack where
  capturedSession : Option { m : CANMessage // m.arbitrationId = CanId.sessionId } := none

namespace SessionHijackAttack

def capture (self : SessionHijackAttack) (message : CANMessage) :
    SessionHijackAttack × Except Err Unit :=
  if h : message.arbitrationId = CanId.sessionId then (⟨some ⟨message, h⟩⟩, .ok ())
  else (self, .error (.valueError "SessionHijackAttack: expected SESSION_ID frame"))

def replay (self : SessionHijackAttack) : Except Err CANMessage :=
  match self.capturedSession with
  | none => .error (.runtimeError "SessionHijackAttack: no session captured")
  | some message => .ok message.val

def createFakeSession (sessionId : Str) : Except Err CANMessage := do
  let data ← sessionId.encode
  return ⟨CanId.sessionId, data⟩

end SessionHijackAttack

namespace InjectionAttack

/-- 999.0 for each measurement. -/
def fakeStatus : BatteryStatus where
  counter := 999
  voltage := .ofBits 0x408F380000000000
  current := .ofBits 0x408F380000000000
  temperature := .ofBits 0x408F380000000000
  soc := 100
  soh := 100
  faultFlags := 0

def injectFakeStatus : Except Err CANMessage := encodeStatus fakeStatus

end InjectionAttack

namespace EvasionAttack

/-- The status of `inject_evasive_status`. -/
def evasiveStatus (voltage current temperature : PyFloat) (counter : Int) : BatteryStatus where
  counter := counter
  voltage := voltage
  current := current
  temperature := temperature
  soc := 85
  soh := 98
  faultFlags := 0

/-- By default 99.0, 495.0 and 148.5 under counter 999. -/
def defaultStatus : BatteryStatus :=
  evasiveStatus (.ofBits 0x4058C00000000000) (.ofBits 0x407EF00000000000)
    (.ofBits 0x4062900000000000) 999

def injectEvasiveStatus (voltage current temperature : PyFloat) (counter : Int) :
    Except Err CANMessage :=
  encodeStatus (evasiveStatus voltage current temperature counter)

/-- The status of `inject_fault_flag_evasion`: the battery's own measurements under a flag. -/
def flaggedStatus (faultFlags counter : Int) : BatteryStatus :=
  { BatteryNode.status counter with faultFlags := faultFlags }

def injectFaultFlagEvasion (faultFlags counter : Int) : Except Err CANMessage :=
  encodeStatus (flaggedStatus faultFlags counter)

end EvasionAttack

/-! ## Traffic -/

/-- A frame on the bus: one of the battery's statuses, whenever and however often it is put there
(replays, delays and suspensions do no more than that), or one that an attack makes. -/
inductive Sent
  /-- The status with a counter. -/
  | status (counter : Nat)
  | dos
  | spoofing
  | fuzzing (draw : FuzzingAttack.Draw)
  /-- The status with a counter, intercepted and modified. -/
  | mitm (counter : Nat) (voltage current temperature : Option PyFloat)
    (soc soh faultFlags : Option Int)
  /-- The status with a counter, corrupted. -/
  | corrupted (counter : Nat) (operation : FuzzingAttack.Operation)
  | hijack (attack : SessionHijackAttack)
  | fakeSession (sessionId : Str)
  | injection
  | evasion (voltage current temperature : PyFloat) (counter : Int)
  | faultFlagEvasion (faultFlags counter : Int)

def Sent.frame : Sent → Except Err CANMessage
  | status counter => encodeStatus (BatteryNode.status counter)
  | dos => .ok DoSAttack.spam
  | spoofing => .ok SpoofingAttack.createFakeIdentity
  | fuzzing draw => .ok (FuzzingAttack.randomFrame draw)
  | mitm counter voltage current temperature soc soh faultFlags => do
    let message ← encodeStatus (BatteryNode.status counter)
    (MitMAttack.intercept {} message).modify voltage current temperature soc soh faultFlags
  | corrupted counter operation =>
    (encodeStatus (BatteryNode.status counter)).map
      (FuzzingAttack.corruptStatusFrame · operation)
  | hijack attack => attack.replay
  | fakeSession sessionId => SessionHijackAttack.createFakeSession sessionId
  | injection => InjectionAttack.injectFakeStatus
  | evasion voltage current temperature counter =>
    EvasionAttack.injectEvasiveStatus voltage current temperature counter
  | faultFlagEvasion faultFlags counter => EvasionAttack.injectFaultFlagEvasion faultFlags counter

end BattLock
