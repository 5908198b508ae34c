import BattLock.Can.Status

/-!
# The man in the middle

`attacks/mitm_attack.py`: a captured status frame is decoded, some of its fields are replaced, and
the status is encoded again with its own counter.
-/

namespace BattLock

open Python

structure MitMAttack where
  capturedMessage : Option CANMessage := none

namespace MitMAttack

def intercept (_ : MitMAttack) (message : CANMessage) : MitMAttack := ⟨some message⟩

/-- A field that is not given keeps its value. -/
def modify (self : MitMAttack) (voltage current temperature : Option PyFloat)
    (soc soh faultFlags : Option Int) : Except Err CANMessage :=
  match self.capturedMessage with
  | none => .error (.runtimeError "MITM: no message captured; call intercept() first")
  | some message => do
    let status ← decodeStatus message
    encodeStatus {
      counter := status.counter
      voltage := voltage.getD status.voltage
      current := current.getD status.current
      temperature := temperature.getD status.temperature
      soc := soc.getD status.soc
      soh := soh.getD status.soh
      faultFlags := faultFlags.getD status.faultFlags }

/-- `m'` is what some call of `modify` makes of the captured `m`. -/
def Variant (m m' : CANMessage) : Prop :=
  ∃ voltage current temperature soc soh faultFlags,
    (intercept {} m).modify voltage current temperature soc soh faultFlags = .ok m'

end MitMAttack

end BattLock
