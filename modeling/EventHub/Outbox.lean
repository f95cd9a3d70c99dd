import EventHub.Record

/-!
What an action leaves behind for the rest of the system: suspended calls that
can go on, in the order in which they became able to, and records.
-/

namespace EventHub

/-- Names one suspended call: the task that waits and a number of its own. -/
structure Ticket where
  task : Nat
  serial : Nat
  deriving DecidableEq, Repr, Inhabited

structure Outbox where
  wakes : List Ticket := []
  records : List Record := []
  deriving Inhabited

namespace Outbox

def wake (o : Outbox) (t : Ticket) : Outbox :=
  { o with wakes := o.wakes ++ [t] }

def wakeAll (o : Outbox) (ts : List Ticket) : Outbox :=
  { o with wakes := o.wakes ++ ts }

def write (o : Outbox) (r : Record) : Outbox :=
  { o with records := o.records ++ [r] }

end Outbox

end EventHub
