import BattLock.Lib.Python

/-!
# The session manager

`protocol/session_manager.py`: a dictionary from session ids to battery ids.
-/

namespace BattLock

open Python

structure SessionManager where
  sessions : List (Str × Str) := []
deriving DecidableEq

namespace SessionManager

def addSession (self : SessionManager) (sessionId batteryId : Str) : SessionManager :=
  ⟨setItem self.sessions sessionId batteryId⟩

def getBattery (self : SessionManager) (sessionId : Str) : Option Str :=
  dictGet self.sessions sessionId

end SessionManager

end BattLock
