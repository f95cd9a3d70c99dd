import EventHub.Config
import EventHub.Error
import EventHub.Event
import EventHub.Workspace.Export

/-!
Scripts: what clients, listeners, services, jobs and plugins do, written as
lists of steps. A step is one call into the system or a means to arrange such
calls in time.
-/

namespace EventHub.Script

/-- How a scripted piece of code ends after its steps. -/
inductive Ending where
  | done
  /-- Breaks off; `atOnce` means when it is called, before its steps, if it is a listener or a
  job that may wait. -/
  | panic (payload : Payload) (atOnce : Bool)
  | fail (reason : String)
  | timeout (deadline : Duration)
  | panicked (info : String)
  | setup (reason : String)
  | canceled
  | ifCanceled
  deriving Inhabited

/-- What a plugin answers when it is asked whether it takes a file. -/
inductive Wants where
  | always (answer : Bool)
  | nameEnds (text : String)
  | contentStarts (bytes : Bytes)
  | panic (payload : Payload)
  deriving Inhabited

/-- What an event is made of, before it gets its number. -/
abbrev EventSpec := Notice

variable (σ : Type)

/-- A listener; its steps and its ending belong to its first calls only, if
`times` says how many. -/
structure ListenerSpec where
  kind : EventKind
  tag : String
  body : List σ
  ending : Ending
  times : Option Nat
  deriving Inhabited

/-- A service. The setup of a scripted one runs its steps and then its ending, and may give its
handle away under a label. -/
inductive ServiceSpec where
  | scripted (name : String) (body : List σ) (ending : Ending) (leak : Option String)
  /-- Breaks off when its setup is called, before that has become a computation. -/
  | abrupt (name : String) (payload : Payload)
  | eventLog
  | mapper
  | workspace (index : Nat)
  deriving Inhabited

structure JobSpec where
  name : String
  body : List σ
  ending : Ending
  deriving Inhabited

/-- The part that factories, generators and parsers have in common. -/
structure PluginSpec where
  body : List σ
  ending : Ending
  times : Option Nat
  wants : Wants
  deriving Inhabited

/-- What a generator makes of a content. -/
inductive Rendering where
  | hex
  | reversed
  | constant (bytes : Bytes)
  | same
  deriving Inhabited

/-- What interrupts a run of the application, and after how many milliseconds. -/
structure Wake where
  ms : Nat
  signal : Option String

/-- Calls to one broker. -/
inductive BrokerStep where
  | register (service : ServiceSpec σ) (label : Option String)
  /-- Without a label, the listener belongs to the service that sets itself up. -/
  | listen (listener : ListenerSpec σ) (service : Option String)
  | fire (event : EventSpec)
  | services
  | shut
  | isClosed
  | describe
  | raceClose (steps : List σ)
  | abandon (service : ServiceSpec σ) (ms : Option Nat) (fill : Nat)

inductive ControlStep where
  | sleep (ms : Nat)
  | all (steps : List σ)
  | yields (rounds : Nat)
  | waitGate (gate : String)
  | openGate (gate : String)
  | within (ms : Nat) (step : σ)
  | spawn (label : Option String) (steps : List σ)
  | join (task : String)
  | abort (task : String)
  | newBroker (config : Config)
  | compareHandles (a b : String)

inductive PoolStep where
  | submit (job : JobSpec σ) (label : Option String)
  | submitBlocking (job : JobSpec σ) (label : Option String)
  | wait (job : String)
  | abort (job : String)
  | live
  | isClosed
  | shutdown (grace : Duration)
  /-- In a job: waits until its token is cancelled. -/
  | waitCancel
  | isCanceled

inductive LifecycleStep where
  | start (services : List (ServiceSpec σ))
  | stop (reason : ShutdownReason)
  | run (services : List (ServiceSpec σ)) (wake : Option Wake)
  | requestShutdown
  | shutdownRequested
  | isShuttingDown
  | config

/-- Calls to one workspace. -/
inductive WorkspaceStep where
  | isClosed
  | addDirectory (name : String) (parent : Option EntryId)
  | addArchive (name : String) (parent : Option EntryId)
  | addFile (name : String) (parent : Option EntryId) (data : Bytes)
  | addClass (name : String) (parent : Option EntryId) (data : Bytes)
  | update (id : EntryId) (data : Bytes)
  | find (path : String)
  | lookUp (id : EntryId)
  | path (id : EntryId)
  | directory (id : Option EntryId)
  | tree (id : Option EntryId)
  | content (id : EntryId)
  | snapshot (id : EntryId) (label : Option String)
  | exportFile (id : EntryId) (writer : Writer)
  | store (id : EntryId) (revision : String) (viewType : String) (data : Bytes)
      (label : Option String)
  | view (id : EntryId) (viewType : String) (label : Option String)
  | viewData (view : String) (viewType : Option String)
      (file : Option EntryId)

inductive FeatureStep where
  | newWorkspace (broker : Nat)
  | compareViews (a b : String)
  | symbol (name : String)
  | reference (name symbol : String)
  | referenced (name : String)
  | symbols
  | factory (name : String) (plugin : PluginSpec σ)
  | map (file : Entry) (data : Bytes)
  | generator (viewType : String) (rendering : Rendering) (plugin : PluginSpec σ)
  | view (id : EntryId) (viewType : String) (label : Option String)
  | exportView (view : String) (writer : Writer)

inductive Step where
  | broker (index : Nat) (s : BrokerStep Step)
  | control (s : ControlStep Step)
  | pool (s : PoolStep Step)
  | lifecycle (s : LifecycleStep Step)
  | workspace (index : Nat) (s : WorkspaceStep)
  | feature (s : FeatureStep Step)
  | unknown (name : String)

instance : Inhabited Step := ⟨.unknown ""⟩

end EventHub.Script
