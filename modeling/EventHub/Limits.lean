import EventHub.Config
import EventHub.Error

/-!
The largest numbers that the system counts with. Permits count the room in a
mailbox and the jobs that may run at once; spans of time count their seconds.
Whoever asks for more than there is breaks off.
-/

namespace EventHub.Limits

/-- The most permits that can be counted. -/
def mostPermits : Nat := 2305843009213693951

/-- The most seconds that a span of time can have. -/
def mostSeconds : Nat := 18446744073709551615

/-- What breaks off the making of anything that needs so many permits. -/
def permitExcess? (permits : Nat) : Option Payload :=
  if permits ≤ mostPermits then none
  else some (.owned s!"a semaphore may not have more than MAX_PERMITS permits ({mostPermits})")

/-- What breaks off the making of a span of time. -/
def spanExcess? (d : Duration) : Option Payload :=
  if d.secs ≤ mostSeconds then none else some (.owned "overflow in Duration::new")

/-- What breaks off the making of a configuration. -/
def configExcess? (c : Config) : Option Payload :=
  [c.grace, c.listenerTimeout, c.jobTimeout].findSome? spanExcess?

end EventHub.Limits
