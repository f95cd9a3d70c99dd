import EventHub.Workspace.Entry

/-!
The closed set of events that pass through a broker. Every event carries a
sequence number of its own.
-/

namespace EventHub

/-- Subscriptions are made for one kind of event. -/
inductive EventKind where
  | applicationStartup
  | applicationShutdown
  | resourceAdded
  | resourceUpdated
  deriving DecidableEq, Repr, Inhabited

namespace EventKind

def all : List EventKind :=
  [applicationStartup, applicationShutdown, resourceAdded, resourceUpdated]

def label : EventKind → String
  | applicationStartup => "application_startup"
  | applicationShutdown => "application_shutdown"
  | resourceAdded => "resource_added"
  | resourceUpdated => "resource_updated"

def ofLabel? (text : String) : Option EventKind :=
  all.find? fun kind => kind.label = text

def name : EventKind → String
  | applicationStartup => "ApplicationStartup"
  | applicationShutdown => "ApplicationShutdown"
  | resourceAdded => "ResourceAdded"
  | resourceUpdated => "ResourceUpdated"

end EventKind

/-- Why the application is shutting down. -/
inductive ShutdownReason where
  | signal
  | requested
  deriving DecidableEq, Repr, Inhabited

def ShutdownReason.name : ShutdownReason → String
  | signal => "Signal"
  | requested => "Requested"

/-- What an event says. -/
inductive Notice where
  | startup
  | shutdown (reason : ShutdownReason)
  | added (file : Entry) (content : Bytes)
  | updated (file : Entry) (content : Bytes)
  deriving DecidableEq, Repr, Inhabited

def Notice.kind : Notice → EventKind
  | startup => .applicationStartup
  | shutdown _ => .applicationShutdown
  | added .. => .resourceAdded
  | updated .. => .resourceUpdated

structure Event where
  seq : Nat
  notice : Notice
  deriving DecidableEq, Repr, Inhabited

namespace Event

def kind (e : Event) : EventKind := e.notice.kind

/-- The event, if it is of this kind. -/
def as? (e : Event) (kind : EventKind) : Option Event :=
  if e.kind = kind then some e else none

end Event

end EventHub
