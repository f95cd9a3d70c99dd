import EventHub.Error
import EventHub.Event

/-! The outcome of firing one event: who took it and who failed. -/

namespace EventHub

/-- A listener that did not take the event, with the service it belongs to. -/
structure FailedDelivery where
  service : String
  error : ListenerError
  deriving DecidableEq, Inhabited

structure Report where
  kind : EventKind
  seq : Nat
  delivered : Nat := 0
  failures : List FailedDelivery := []
  deriving DecidableEq, Inhabited

namespace Report

def ofEvent (e : Event) : Report :=
  { kind := e.kind, seq := e.seq }

/-- How many listeners were called. -/
def matched (r : Report) : Nat := r.delivered + r.failures.length

def isClean (r : Report) : Bool := r.failures.isEmpty

end Report

end EventHub
