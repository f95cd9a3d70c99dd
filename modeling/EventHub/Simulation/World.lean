import EventHub.Mapper.Basic
import EventHub.Simulation.Future

/-!
The state of a simulation: the system itself, the tasks with the order in
which they can run, a clock that moves only when nothing can, and what was
observed.
-/

namespace EventHub.Simulation

open EventHub.Script

/-- What a task runs. -/
inductive Running where
  | unit (future : Future .unit)
  | job (id : JobId) (future : Future .job)
  | blocking (job : JobId) (future : Future .job)
  /-- A spawned script; one that was spawned in a job refers to its token. -/
  | script (token : Option JobId) (future : Future .results)
  /-- The script itself, one step at a time. -/
  | main (future : Future .result)
  /-- The script waits until everything else is idle. -/
  | settling (future : Future .unit)
  | finished

structure Task where
  running : Running
  isQueued : Bool := false
  isAborted : Bool := false

/-- Where a spawned script ended, if it did. -/
inductive Joined where
  | results (list : List Script.Result)
  | aborted

structure Hosted where
  workspace : Workspace := {}
  broker : Nat
  parser : Option Parser := none

structure World where
  config : Config
  -- the system
  brokers : Array (Broker Action) := #[]
  pool : Pool
  workspaces : Array Hosted := #[]
  mapper : Mapper Plugin := {}
  views : Views Renderer := {}
  /-- The calls for views, by number. -/
  viewCalls : Array (Generation.Call Renderer) := #[]
  trigger : ShutdownTrigger := {}
  preset : List Service := []
  nextSeq : Nat := 0
  nextStamp : Nat := 0
  -- plugins, listeners and jobs
  calls : Array Nat := #[]
  blockingDone : List (Nat × Outcome JobResult) := []
  blockingWaiters : List (Nat × Ticket) := []
  -- scheduling
  clock : Nat := 0
  serial : Nat := 0
  tasks : Array Task := #[]
  /-- The task that runs; the first one, which is nobody's, between two runs. -/
  current : Nat := 0
  /-- The running task was woken and runs again later. -/
  isRewoken : Bool := false
  ready : List Nat := []
  streak : Nat := 0
  /-- Tasks that let others pass, the latest last. -/
  deferred : List Nat := []
  /-- How many things the running task may still take before it has to let
  others pass. The blocking thread keeps nobody waiting and may go on. -/
  allowance : Option Nat := none
  alarms : List Alarm := []
  blockingQueue : List Nat := []
  blockingActive : Option Nat := none
  openGates : List String := []
  gateWaiters : List (String × Ticket) := []
  /-- Signals that have not arrived yet. -/
  raised : List String := []
  interrupts : List (Ticket × Option String) := []
  joined : List (Nat × Joined) := []
  joinWaiters : List (Nat × Ticket) := []
  -- labels
  handles : List (String × Handle) := []
  jobLabels : List (String × JobId) := []
  taskLabels : List (String × Nat) := []
  viewLabels : List (String × View) := []
  revisions : List (String × Revision) := []
  -- observation
  answer : Option (Script.Result × Nat) := none
  isSettled : Bool := false
  seen : List Seen := []
  deeds : List (String × Deed) := []
  records : List Record := []

abbrev Sim := StateM World

namespace Sim

/-- A number for a call that the current task is about to wait for. -/
def ticket : Sim Ticket := do
  let w ← get
  set { w with serial := w.serial + 1 }
  return { task := w.current, serial := w.serial }

/-- A suspended task can go on. One that is running is queued again when it
suspends; the blocking thread has a queue of its own. -/
def wakeTask (id : Nat) : Sim Unit := modify fun w =>
  match w.tasks[id]? with
  | none => w
  | some t =>
    match t.running with
    | .finished => w
    | .blocking .. => { w with tasks := w.tasks.set! id { t with isQueued := true } }
    | _ =>
      if id = w.current then { w with isRewoken := true }
      else if t.isQueued then w
      else
        { w with
          tasks := w.tasks.set! id { t with isQueued := true }
          ready := w.ready ++ [id] }

def wake (t : Ticket) : Sim Unit := wakeTask t.task

def wakeAll (ts : List Ticket) : Sim Unit := ts.forM wake

/-- Lets every other task run before the current one goes on. -/
def defer : Sim Unit := do
  let w ← get
  let id := w.current
  match (w.tasks[id]?).map Task.running with
  | some (Running.blocking ..) => wakeTask id
  | _ => unless w.deferred.getLast? = some id do set { w with deferred := w.deferred ++ [id] }

/-- Whether the running task has taken all that it may for now. -/
def isSpent : Sim Bool := return (← get).allowance = some 0

/-- The running task has taken something. -/
def spend (things : Nat) : Sim Unit := modify fun w =>
  { w with allowance := w.allowance.map (· - things) }

def spawn (running : Running) : Sim Nat := do
  let w ← get
  let id := w.tasks.size
  set { w with
    tasks := w.tasks.push { running, isQueued := true }
    ready := w.ready ++ [id] }
  return id

def write (r : Record) : Sim Unit := modify fun w => { w with records := w.records ++ [r] }

def writeAll (rs : List Record) : Sim Unit := modify fun w => { w with records := w.records ++ rs }

def see (s : Seen) : Sim Unit := modify fun w => { w with seen := w.seen ++ [s] }

def deed (who : String) (d : Deed) : Sim Unit := modify fun w =>
  { w with deeds := w.deeds ++ [(who, d)] }

/-- A broker that does not exist is as good as a closed one. -/
def noBroker : Broker Action :=
  { listenerDeadline := none
    mailbox := { capacity := 0, isOpen := false }
    worker := default
    isClosed := true
    hasStopped := true }

/-- Acts on a broker, wakes whom that concerns and keeps its records. -/
def onBroker {α : Type} (index : Nat) (act : Broker Action → Broker Action × α) : Sim α := do
  let w ← get
  match w.brokers[index]? with
  | none => return (act noBroker).2
  | some b =>
    let (b, a) := act b
    set { w with brokers := w.brokers.set! index { b with outbox := {} } }
    writeAll b.outbox.records
    wakeAll b.outbox.wakes
    return a

def onPool {α : Type} (act : Pool → Pool × α) : Sim α := do
  let w ← get
  let (p, a) := act w.pool
  set { w with pool := { p with outbox := {} } }
  writeAll p.outbox.records
  wakeAll p.outbox.wakes
  return a

def updatePool (act : Pool → Pool) : Sim Unit := onPool fun p => (act p, ())

def workspace (index : Nat) : Sim Workspace := do
  match (← get).workspaces[index]? with
  | none => return {}
  | some h => return h.workspace

def setWorkspace (index : Nat) (state : Workspace) : Sim Unit := modify fun w =>
  match w.workspaces[index]? with
  | none => w
  | some h => { w with workspaces := w.workspaces.set! index { h with workspace := state } }

/-- Every event that is made gets the next number, whatever becomes of it. -/
def event (notice : Notice) : Sim Event := do
  let w ← get
  set { w with nextSeq := w.nextSeq + 1 }
  return { seq := w.nextSeq, notice }

def stamp : Sim Nat := do
  let w ← get
  set { w with nextStamp := w.nextStamp + 1 }
  return w.nextStamp

/-- A counter for the calls of a new listener or plugin. -/
def slot : Sim Nat := do
  let w ← get
  set { w with calls := w.calls.push 0 }
  return w.calls.size

/-- Counts a call; whether it is one of the first `times`. -/
def countCall (slot : Nat) (times : Option Nat) : Sim Bool := do
  let w ← get
  let before := (w.calls[slot]?).getD 0
  set { w with calls := w.calls.set! slot (before + 1) }
  return match times with
    | none => true
    | some n => before < n

def plugin (spec : PluginSpec Step) : Sim Plugin := do
  return { slot := ← slot, spec }

def alarmAfter (d : Duration) : Sim Alarm := do
  let ticket ← ticket
  return { ticket, deadline := (← get).clock + d.timerMillis }

/-- An alarm is due at its deadline; until then it is set. -/
def isDue (a : Alarm) : Sim Bool := do
  let w ← get
  if a.deadline ≤ w.clock then return true
  unless a ∈ w.alarms do set { w with alarms := w.alarms ++ [a] }
  return false

def unset (a : Alarm) : Sim Unit := modify fun w => { w with alarms := w.alarms.erase a }

/-- Spawns the task that runs a new job. -/
def submit (name : String) (body : JobBody) : Sim JobId := do
  let id ← onPool (·.submit name)
  let _ ← spawn (.job id (.begin (.task id body)))
  return id

/-- A broker with its registry's task. -/
def newBroker (config : Config) : Sim Nat := do
  let w ← get
  let index := w.brokers.size
  let worker : Ticket := { task := w.tasks.size, serial := w.serial }
  set { w with
    serial := w.serial + 1
    brokers := w.brokers.push (Broker.new config worker) }
  let _ ← spawn (.unit (.begin (.registry index)))
  return index

/-- A slot that nobody decided is discarded by a task of its own. -/
def discardLater (broker : Nat) : Option ServiceId → Sim Unit
  | none => return ()
  | some id => do
    let _ ← spawn (.unit (.begin (.discard broker id)))

def requestShutdown : Sim Unit := do
  let w ← get
  let (trigger, woken) := w.trigger.pull
  set { w with trigger }
  wakeAll woken

/-- A signal is raised. It arrives once the tasks that can run have run. -/
def raise (name : String) : Sim Unit := modify fun w =>
  { w with raised := w.raised ++ [name] }

/-- The signals that were raised reach everyone who waits for one by now. -/
def deliverSignals : Sim Unit := do
  let w ← get
  if let name :: _ := w.raised then
    let told : List (Ticket × Option String) :=
      w.interrupts.map fun i => (i.1, i.2 <|> some name)
    set { w with raised := [], interrupts := told }
    wakeAll (told.map Prod.fst)

def openGate (name : String) : Sim Unit := do
  let w ← get
  let (woken, rest) := w.gateWaiters.partition fun g => g.1 = name
  set { w with openGates := name :: w.openGates, gateWaiters := rest }
  wakeAll (woken.map Prod.snd)

/-- Takes away the task of a job or script that has not ended. -/
def abortTask (id : Nat) : Sim Unit := do
  let w ← get
  match w.tasks[id]? with
  | none => return ()
  | some t =>
    match t.running with
    | .finished => return ()
    | _ =>
      set { w with tasks := w.tasks.set! id { t with isAborted := true } }
      wakeTask id

def setLabel {α : Type} (labels : List (String × α)) (label : Option String) (a : α) :
    List (String × α) :=
  match label with
  | none => labels
  | some l => (l, a) :: labels.filter (·.1 ≠ l)

end Sim

end EventHub.Simulation
