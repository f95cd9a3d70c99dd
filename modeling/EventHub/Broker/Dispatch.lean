import EventHub.Broker.Basic
import EventHub.Report

/-!
Firing an event: ask the registry who listens to its kind, then call those
listeners one after another. What a listener does changes neither the list nor
the calls after it; failures are recorded and collected in the report.
-/

namespace EventHub

/-- How one listener call ended, the deadline included. -/
inductive Verdict where
  | returned (result : Except ListenerError Unit)
  | panicked (payload : Payload)
  | overdue (deadline : Duration)

/-- What the report says about a call. -/
def Verdict.result : Verdict → Except ListenerError Unit
  | returned result => result
  | panicked payload => .error (.panicked payload.message)
  | overdue deadline => .error (.timeout deadline)

/-- An event on its way through the listeners that were found for it. -/
structure Dispatch (L : Type) where
  event : Event
  remaining : List (Subscription L)
  report : Report

namespace Dispatch

variable {L : Type}

/-- What happens next in a dispatch. -/
inductive Next (L : Type) where
  | asking (event : Event) (call : Call L)
  | deliver (subscription : Subscription L) (rest : Dispatch L)
  | finished (result : Except BrokerError Report)

/-- Calls the next listener; with none left the report is complete. -/
def advance (b : Broker L) (d : Dispatch L) : Broker L × Next L :=
  match d.remaining with
  | s :: rest => (b, .deliver s { d with remaining := rest })
  | [] =>
    let b := b.note .debug "event dispatched"
      [("kind", d.report.kind.label), ("seq", toString d.report.seq),
       ("delivered", toString d.report.delivered),
       ("failed", toString d.report.failures.length)]
    (b, .finished (.ok d.report))

def asked (event : Event) : Broker L × Called L → Broker L × Next L
  | (b, .suspended call) => (b, .asking event call)
  | (b, .finished (.ok (.subscriptions list))) =>
    advance b { event, remaining := list, report := .ofEvent event }
  | (b, .finished (.ok _)) => (b, .finished (.error .closed))
  | (b, .finished (.error e)) => (b, .finished (.error e))

def start (b : Broker L) (t : Ticket) (event : Event) : Broker L × Next L :=
  asked event (b.call t (.snapshot event.kind))

def resume (b : Broker L) (event : Event) (call : Call L) : Broker L × Next L :=
  asked event (b.resume call)

/-- A listener is written for one kind of event and refuses any other. -/
def mismatch? (s : Subscription L) (event : Event) : Option ListenerError :=
  if event.kind = s.listener.expects then none
  else some (.failed s!"expected {s.listener.expects.label} event, got {event.kind.label}")

/-- Enters the outcome of a call into the report. -/
def settle (b : Broker L) (d : Dispatch L) (s : Subscription L) (verdict : Verdict) :
    Broker L × Dispatch L :=
  match verdict.result with
  | .ok () => (b, { d with report := { d.report with delivered := d.report.delivered + 1 } })
  | .error e =>
    let b := b.note .warn "error during event dispatch"
      [("service", s.service.text), ("kind", d.event.kind.label),
       ("seq", toString d.event.seq), ("error", e.message), ("label", e.label)]
    (b, { d with
            report := { d.report with
              failures := d.report.failures ++ [⟨s.service.name, e⟩] } })

/-- A listener call has ended. -/
def ended (b : Broker L) (d : Dispatch L) (s : Subscription L) (verdict : Verdict) :
    Broker L × Next L :=
  let (b, d) := settle b d s verdict
  advance b d

end Dispatch

end EventHub
