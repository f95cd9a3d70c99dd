import EventHub.Error
import EventHub.Event
import EventHub.Record

/-!
The books of a broker: which services are registered, which are still setting
themselves up, and who listens to what. Commands are applied one at a time. A
subscription made while its service is pending stays with the pending entry
and is entered into the tables when the service is confirmed, or lost with it
when it is discarded.
-/

namespace EventHub

/-- Number a broker gives to a service. -/
structure ServiceId where
  val : Nat
  deriving DecidableEq, Repr, Inhabited

def ServiceId.text (id : ServiceId) : String := "#" ++ toString id.val

/-- Names a pending or registered service. -/
structure Handle where
  id : ServiceId
  name : String
  deriving DecidableEq, Repr, Inhabited

def Handle.text (h : Handle) : String := h.name ++ h.id.text

/-- Code that takes events of one kind. -/
structure Listener (L : Type) where
  expects : EventKind
  action : L

/-- A listener with the service it belongs to, under the kind it is called
for. -/
structure Subscription (L : Type) where
  service : Handle
  kind : EventKind
  listener : Listener L

/-- One value for every kind of event. -/
structure PerKind (α : Type) where
  startup : α
  shutdown : α
  added : α
  updated : α

namespace PerKind

variable {α : Type}

def get (p : PerKind α) : EventKind → α
  | .applicationStartup => p.startup
  | .applicationShutdown => p.shutdown
  | .resourceAdded => p.added
  | .resourceUpdated => p.updated

def modify (p : PerKind α) (f : α → α) : EventKind → PerKind α
  | .applicationStartup => { p with startup := f p.startup }
  | .applicationShutdown => { p with shutdown := f p.shutdown }
  | .resourceAdded => { p with added := f p.added }
  | .resourceUpdated => { p with updated := f p.updated }

end PerKind

/-- A service that is still setting itself up. -/
structure Pending (L : Type) where
  handle : Handle
  subscriptions : List (Subscription L) := []

structure Registry (L : Type) where
  lastId : Nat := 0
  pending : List (ServiceId × Pending L) := []
  services : List Handle := []
  table : PerKind (List (Subscription L)) := ⟨[], [], [], []⟩

inductive Command (L : Type) where
  | reserve (name : String)
  | subscribe (service : Handle) (listener : Listener L)
  | confirm (service : ServiceId) (name : String)
  | discard (service : ServiceId)
  | snapshot (kind : EventKind)
  | services

inductive Answer (L : Type) where
  | reserved (handle : Handle)
  | settled (result : Except BrokerError Unit)
  | subscriptions (list : List (Subscription L))
  | services (list : List Handle)

namespace Registry

variable {L : Type}

def note (level : Level) (message : String) (fields : List (String × String)) : Record :=
  { origin := .registry, level, message, fields }

def reserve (r : Registry L) (name : String) : Registry L × Handle :=
  let handle : Handle := ⟨⟨r.lastId + 1⟩, name⟩
  ({ r with
      lastId := r.lastId + 1
      pending := r.pending ++ [(handle.id, { handle })] },
    handle)

/-- Enters one subscription at the end of its kind's table. -/
def enter (table : PerKind (List (Subscription L))) (s : Subscription L) :
    PerKind (List (Subscription L)) :=
  table.modify (· ++ [s]) s.kind

/-- What a subscription on behalf of `service` would become part of. -/
inductive Standing where
  | pending (owner : Handle)
  | registered (owner : Handle)
  | unknown

def standing (r : Registry L) (id : ServiceId) : Standing :=
  match r.pending.lookup id with
  | some p => .pending p.handle
  | none =>
    match r.services.find? (·.id = id) with
    | some owner => .registered owner
    | none => .unknown

def subscribe (r : Registry L) (service : Handle) (listener : Listener L) :
    Registry L × Except BrokerError Unit :=
  match r.standing service.id with
  | .pending owner =>
    let s : Subscription L := ⟨owner, listener.expects, listener⟩
    let keep := fun (entry : ServiceId × Pending L) =>
      if entry.1 = service.id then
        (entry.1, { entry.2 with subscriptions := entry.2.subscriptions ++ [s] })
      else entry
    ({ r with pending := r.pending.map keep }, .ok ())
  | .registered owner =>
    ({ r with table := enter r.table ⟨owner, listener.expects, listener⟩ }, .ok ())
  | .unknown => (r, .error (.unknownService service.name))

/-- Takes a slot out of the pending entries. -/
def withdraw (r : Registry L) (id : ServiceId) : Registry L :=
  { r with pending := r.pending.filter (·.1 ≠ id) }

def confirm (r : Registry L) (id : ServiceId) (name : String) :
    Registry L × Except BrokerError Unit :=
  match r.pending.lookup id with
  | none => (r, .error (.unknownService name))
  | some p =>
    ({ r.withdraw id with
        services := r.services ++ [p.handle]
        table := p.subscriptions.foldl enter r.table },
      .ok ())

def discard (r : Registry L) (id : ServiceId) : Registry L :=
  r.withdraw id

def snapshot (r : Registry L) (kind : EventKind) : List (Subscription L) :=
  r.table.get kind

/-- Effect of a command on the books, with its answer if it has one. -/
def apply (r : Registry L) : Command L → Registry L × Option (Answer L)
  | .reserve name =>
    let (r', handle) := r.reserve name
    (r', some (.reserved handle))
  | .subscribe service listener =>
    let (r', result) := r.subscribe service listener
    (r', some (.settled result))
  | .confirm id name =>
    let (r', result) := r.confirm id name
    (r', some (.settled result))
  | .discard id => (r.discard id, none)
  | .snapshot kind => (r, some (.subscriptions (r.snapshot kind)))
  | .services => (r, some (.services r.services))

/-- Applies a command. Nobody will confirm or discard a slot whose number
nobody was told, so it is given up at once. -/
def serve (r : Registry L) (c : Command L) (callerWaits : Bool) : Registry L × Option (Answer L) :=
  match r.apply c with
  | (r', some (.reserved handle)) =>
    (if callerWaits then r' else r'.discard handle.id, some (.reserved handle))
  | other => other

def discardRecord (r : Registry L) (id : ServiceId) : List Record :=
  match r.pending.lookup id with
  | none => []
  | some p =>
    [note .debug "discarded pending service"
      [("service", p.handle.text), ("dropped", toString p.subscriptions.length)]]

/-- What the registry records about a command that it is about to apply. -/
def recordsOf (r : Registry L) (c : Command L) (callerWaits : Bool) : List Record :=
  match c with
  | .reserve name =>
    let (r', handle) := r.reserve name
    note .trace "reserved service slot" [("service", handle.text)] ::
      (if callerWaits then [] else r'.discardRecord handle.id)
  | .subscribe service listener =>
    let fields := [("service", service.text), ("kind", listener.expects.label)]
    match r.standing service.id with
    | .pending _ => [note .trace "listener pending admission" fields]
    | .registered _ => [note .trace "listener committed" fields]
    | .unknown => []
  | .discard id => r.discardRecord id
  | _ => []

end Registry

end EventHub
