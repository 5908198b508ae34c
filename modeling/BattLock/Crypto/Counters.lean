/-!
# Message counters

`crypto/counters/message_counter.py` on the sending side and
`crypto/counters/replay_protection.py` on the receiving side.
-/

namespace BattLock

structure MessageCounter where
  counter : Int := 0

namespace MessageCounter

/-- The counter is increased, then returned. -/
def next (self : MessageCounter) : MessageCounter × Int :=
  let counter := self.counter + 1
  (⟨counter⟩, counter)

def current (self : MessageCounter) : Int := self.counter

def reset (_ : MessageCounter) : MessageCounter := ⟨0⟩

end MessageCounter

structure ReplayProtection where
  lastCounter : Int := 0
deriving DecidableEq

namespace ReplayProtection

/-- A counter is fresh if it is above the last fresh one, which it then replaces. -/
def validate (self : ReplayProtection) (receivedCounter : Int) : ReplayProtection × Bool :=
  if receivedCounter ≤ self.lastCounter then (self, false) else (⟨receivedCounter⟩, true)

end ReplayProtection

end BattLock
