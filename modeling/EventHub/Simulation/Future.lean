import EventHub.Broker.Dispatch
import EventHub.Broker.Registration
import EventHub.Lifecycle
import EventHub.Script.Result
import EventHub.Script.Step
import EventHub.View.Generation

/-!
Suspended computations as data. A future is a computation that has not started,
one that waits for something, or one whose result another piece of code goes
on with. Nothing in it is hidden: what it waits for, and what happens next, can
be read off.
-/

namespace EventHub.Simulation

open EventHub.Script

/-- What a listener does when it is called. -/
inductive Action where
  /-- `slot` counts the calls of this listener. -/
  | scripted (slot : Nat) (spec : ListenerSpec Step)
  | logEvent
  | mapFile
  | closeWorkspace (index : Nat)

abbrev Service := ServiceSpec Step

def serviceName : Service → String
  | .scripted name .. => name
  | .abrupt name _ => name
  | .eventLog => "event-log"
  | .mapper => "mapper-feature"
  | .workspace _ => "workspace-service"

/-- A plugin; `slot` counts its calls. -/
structure Plugin where
  slot : Nat
  spec : PluginSpec Step

/-- A plugin that imports classes whose content starts in the right way. -/
structure Parser where
  magic : Bytes
  plugin : Plugin

/-- A plugin that makes views. -/
structure Renderer where
  rendering : Rendering
  plugin : Plugin

/-- Work for the one thread that may block. -/
inductive Work where
  | script (spec : JobSpec Step)
  | importClass (parser : Parser) (file : Entry) (content : Bytes)
  | mapFile (factory : String) (plugin : Plugin) (file : Entry) (content : Bytes)
  /-- A view for the call of this number. -/
  | render (call : Nat) (renderer : Renderer) (viewType : String) (file : Entry) (content : Bytes)

inductive JobBody where
  | scripted (spec : JobSpec Step)
  | blocking (work : Work)

/-- What a step knows about the code it belongs to. -/
structure Context where
  /-- The service that sets itself up. -/
  own : Option Handle := none
  /-- The job at whose token it can look. -/
  token : Option JobId := none

/-- Where the results of a list of steps are shown. -/
inductive Sink where
  | nowhere
  | listener (tag : String)
  | background (who : String)

/-- A point in time to be woken at. -/
structure Alarm where
  ticket : Ticket
  deadline : Nat
  deriving DecidableEq, Inhabited

/-- The kinds of values that computations return. -/
inductive Shape where
  | unit
  | result
  | results
  | handle
  | subscribed
  | handles
  | report
  | setUp
  | listener
  | job
  | drain
  | started
  | entry
  | view
  | reason
  | maybe (shape : Shape)

abbrev Shape.Value : Shape → Type
  | unit => Unit
  | result => Script.Result
  | results => List Script.Result
  | handle => Except BrokerError Handle
  | subscribed => Except BrokerError Unit
  | handles => Except BrokerError (List Handle)
  | report => Except BrokerError Report
  | setUp => Except ServiceError Unit
  | listener => Except ListenerError Unit
  | job => JobResult
  | drain => Except RuntimeError Unit
  | started => Except RuntimeError (List String)
  | entry => Except WorkspaceError Entry
  | view => Generation.Result
  | reason => ShutdownReason
  | maybe shape => Option shape.Value

/-- What a suspended computation waits for. -/
inductive Wait : Shape → Type where
  | registration (broker : Nat) (ticket : Ticket) (service : Service)
      (stage : Registration Action) : Wait .handle
  | asking (broker : Nat) (event : Event) (call : EventHub.Call Action) : Wait .report
  | subscribing (broker : Nat) (call : EventHub.Call Action) : Wait .subscribed
  | listing (broker : Nat) (call : EventHub.Call Action) : Wait .handles
  /-- Room to post a discard that nobody waits for. -/
  | posting (broker : Nat) (ticket : Ticket) (service : ServiceId) : Wait .unit
  /-- The registry's own wait for commands. -/
  | commands (broker : Nat) : Wait .unit
  | alarm (alarm : Alarm) : Wait .unit
  | gate (name : String) (ticket : Ticket) : Wait .unit
  | cancellation (job : JobId) (ticket : Ticket) : Wait .unit
  | shutdown (ticket : Ticket) : Wait .unit
  /-- A shutdown request or a signal. -/
  | interruption (ticket : Ticket) : Wait .reason
  | permit (job : JobId) (ticket : Ticket) (body : JobBody) : Wait .job
  | drained (ticket : Ticket) : Wait .unit
  | jobResult (job : JobId) (ticket : Ticket) : Wait .job
  | task (task : Nat) (ticket : Ticket) : Wait (.maybe .results)
  | blocking (task : Nat) (ticket : Ticket) : Wait .job
  /-- Things to take, one by one, before the computation goes on. -/
  | taking (things : Nat) (ticket : Ticket) : Wait .unit
  /-- Lets other tasks run, `rounds` times more. -/
  | yielded (rounds : Nat) (ticket : Ticket) : Wait .unit

/-- A computation that has not started. -/
inductive Begin : Shape → Type where
  | step (context : Context) (step : Step) : Begin .result
  /-- A step that has taken what it works on. -/
  | perform (context : Context) (step : Step) : Begin .result
  | steps (context : Context) (sink : Sink) (steps : List Step) : Begin .results
  | register (broker : Nat) (service : Service) : Begin .handle
  | setUp (broker : Nat) (handle : Handle) (service : Service) : Begin .setUp
  | subscribe (broker : Nat) (handle : Handle) (listener : Listener Action) :
      Begin .subscribed
  | fire (broker : Nat) (event : Event) : Begin .report
  | listener (action : Action) (event : Event) : Begin .listener
  /-- A listener that has taken what it works on. -/
  | react (action : Action) (event : Event) : Begin .listener
  | registry (broker : Nat) : Begin .unit
  | discard (broker : Nat) (service : ServiceId) : Begin .unit
  | sleep (ms : Nat) : Begin .unit
  | wake (wake : Wake) : Begin .unit
  | task (job : JobId) (body : JobBody) : Begin .job
  | body (job : JobId) (body : JobBody) : Begin .job
  | work (job : JobId) (work : Work) : Begin .job
  | finishJob (job : JobId) (ending : Pool.BodyEnd) : Begin .job
  | shutdownPool (grace : Duration) : Begin .drain
  | drain (grace : Duration) : Begin .drain
  | graceOver (grace : Duration) : Begin .drain
  | view (file : EntryId) (viewType : String) : Begin .view
  /-- The call for a view of this number has taken what it needs for a turn. -/
  | turnView (call : Nat) : Begin .view
  | start (services : List Service) : Begin .started
  | stop (reason : ShutdownReason) : Begin .drain
  | interruption : Begin .reason

/-- What goes on with a result. -/
inductive Frame : Shape → Shape → Type where
  | andThen {a : Shape} (next : Begin a) : Frame .unit a
  | map {a b : Shape} (f : a.Value → b.Value) : Frame a b
  /-- A step whose code broke off answers with that. -/
  | guarded : Frame .result .result
  | keepHandle (label : Option String) : Frame .handle .handle
  | keepView (label : Option String) : Frame .view .view
  | nextStep (context : Context) (sink : Sink) (rest : List Step)
      (done : List Script.Result) : Frame .result .results
  /-- A service's setup is in progress on behalf of its registration. -/
  | settingUp (broker : Nat) (ticket : Ticket) (handle : Handle) (service : Service) :
      Frame .setUp .handle
  | nextSetUp (broker : Nat) (handle : Handle) (name : String) (rest : List Step)
      (ending : Ending) : Frame .result .setUp
  | ownListen (broker : Nat) (handle : Handle) (name : String) (rest : List Step)
      (ending : Ending) : Frame .subscribed .setUp
  | nextListen (broker : Nat) (handle : Handle) (rest : List (Listener Action))
      (last : Option Record) : Frame .subscribed .setUp
  | delivered (broker : Nat) (dispatch : Dispatch Action) (subscription : Subscription Action)
      (deadline : Option Duration) : Frame (.maybe .listener) .report
  | listenerEnd (ending : Ending) : Frame .results .listener
  | bodyEnd (job : JobId) (deadline : Option Duration) : Frame (.maybe .job) .job
  | scriptEnd (job : JobId) (who : String) (ending : Ending) : Frame .results .job
  | importEnd (magic content : Bytes) (ending : Ending) : Frame .results .job
  | mapEnd (job : JobId) (ending : Ending) : Frame .results .job
  | renderEnd (call : Nat) (ending : Ending) : Frame .results .job
  | drainEnd (grace : Duration) : Frame (.maybe .unit) .drain
  | classAdded (ws : Nat) (content : Bytes) : Frame .entry .entry
  | collect (call : Nat) : Frame .job .view
  | decided (startup : Startup Service) : Frame .handle .started
  | announced (startup : Startup Service) : Frame .report .started
  | stopAnnounced : Frame .report .drain
  | stopDrained (announced : Except BrokerError Unit) : Frame .drain .drain
  | runStarted : Frame .started .drain
  | interrupted : Frame .reason .drain
  | woken (wake : Wake) : Frame .unit .unit

inductive Future : Shape → Type where
  | done {a : Shape} (outcome : Outcome a.Value) : Future a
  | begin {a : Shape} (b : Begin a) : Future a
  | wait {a : Shape} (w : Wait a) : Future a
  | bind {a b : Shape} (inner : Future a) (frame : Frame a b) : Future b
  /-- Gives up at the alarm; a result at the same instant counts. -/
  | within {a : Shape} (alarm : Alarm) (inner : Future a) : Future (.maybe a)
  /-- The result of the first, then those of the others. -/
  | followed (first : Future .result) (others : Future .results) : Future .results
  /-- Lets each step run until it waits, closes the broker, then lets them end. -/
  | raceClose (broker : Nat) (context : Context) (steps : List Step) : Future .results
  /-- Gives a registration up as soon as it waits, or at the alarm. -/
  | abandon (broker : Nat) (alarm : Option Alarm) (fill : Nat) (inner : Future .handle) :
      Future .result

namespace Future

def value {a : Shape} (v : a.Value) : Future a := .done (.returned v)

def panic {a : Shape} (payload : Payload) : Future a := .done (.panicked payload)

/-- Goes on with a plain function of the result. -/
def map {a b : Shape} (inner : Future a) (f : a.Value → b.Value) : Future b :=
  .bind inner (.map f)

end Future

end EventHub.Simulation
