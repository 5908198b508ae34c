import BattLock.Integration.VerifyFrames

/-!
# The verifier of all modes

`simulink/verify_all_modes.py`: the rows recorded by Simulink and those generated by the Python
attacks, one after the other, through the same row loop and the same report as `verify_frames`,
with names for twelve modes instead of six.
-/

namespace BattLock

def descriptions : List (Int × String) := [
  (0, "No attack (baseline)"),
  (1, "Replay attack"),
  (2, "Signature spoofing"),
  (3, "Voltage injection"),
  (4, "Signature dropping"),
  (5, "Spoof + voltage injection"),
  (6, "MITM telemetry tamper"),
  (7, "Delay / reorder"),
  (8, "Fuzzing"),
  (9, "Session hijacking"),
  (10, "Threshold evasion"),
  (11, "Certificate tampering")]

def verifyAll (frames extra : List FrameRow) : Verification :=
  verifyWith descriptions (frames ++ extra)

end BattLock
