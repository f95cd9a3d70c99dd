import EventHub.Error
import EventHub.Event
import EventHub.Outbox

/-!
Starting and stopping the application. Starting registers services one after
another and then announces the startup; stopping announces the shutdown,
drains the pool and closes the broker, whatever the steps before said.
-/

namespace EventHub

/-- The trigger shared by everything that asks for, or waits for, a shutdown. -/
structure ShutdownTrigger where
  isPulled : Bool := false
  watchers : List Ticket := []

namespace ShutdownTrigger

/-- Asks for a shutdown; the tickets are of those who waited for that. -/
def pull (s : ShutdownTrigger) : ShutdownTrigger × List Ticket :=
  if s.isPulled then (s, [])
  else ({ isPulled := true, watchers := [] }, s.watchers)

end ShutdownTrigger

/-- A startup under way. -/
structure Startup (S : Type) where
  remaining : List S
  admitted : List String := []

namespace Startup

variable {S : Type}

def note (level : Level) (message : String) (fields : List (String × String)) : Record :=
  { origin := .runtime, level, message, fields }

/-- What happens next in a startup. -/
inductive Next (S : Type) where
  | register (service : S) (rest : Startup S)
  | announce (startup : Startup S)
  | failed (error : RuntimeError)

def advance (s : Startup S) : Next S :=
  match s.remaining with
  | service :: rest => .register service { s with remaining := rest }
  | [] => .announce s

/-- A registration was decided: a service that could not set itself up is left
out, any other failure ends the startup. -/
def decided (s : Startup S) : Except BrokerError String → Next S
  | .ok handle => { s with admitted := s.admitted ++ [handle] }.advance
  | .error (.initializationFailed ..) => s.advance
  | .error e => .failed (.broker e)

def decidedRecords : Except BrokerError String → List Record
  | .error (.initializationFailed service reason) =>
    let e := BrokerError.initializationFailed service reason
    [note .error "service skipped" [("error", e.message), ("label", e.label)]]
  | _ => []

def announcedRecord (s : Startup S) (listeners : Nat) : Record :=
  note .info "application started"
    [("services", toString s.admitted.length), ("listeners", toString listeners)]

end Startup

/-- What a stop returns once the pool was drained and the broker closed: a
failed announcement comes before a grace that ran out. -/
def stopResult (announced : Except BrokerError Unit) (drained : Except RuntimeError Unit) :
    Except RuntimeError Unit :=
  match announced with
  | .error e => .error (.broker e)
  | .ok () => drained

end EventHub
