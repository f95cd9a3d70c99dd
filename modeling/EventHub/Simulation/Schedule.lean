import EventHub.Simulation.Poll

/-!
Who runs when. Tasks run one at a time, in the order in which they became able
to; work for the blocking thread runs when no task can, and the clock moves
when that has ended too.
-/

namespace EventHub.Simulation.Sim

open EventHub.Script

/-- Moves of a computation within one poll; no script comes near it. -/
def pollFuel : Nat := 10000000

/-- A spawned script has ended; those who joined it go on. -/
def scriptEnded (task : Nat) (token : Option JobId) (joined : Joined) : Sim Unit := do
  token.forM fun job => updatePool (·.returnToken job)
  let w ← get
  let (woken, rest) := w.joinWaiters.partition fun j => j.1 = task
  set { w with joined := (task, joined) :: w.joined, joinWaiters := rest }
  wakeAll (woken.map Prod.snd)

/-- The blocking thread is free again. -/
def blockingEnded (task : Nat) (job : JobId) (outcome : Outcome JobResult) : Sim Unit := do
  let w ← get
  let (woken, rest) := w.blockingWaiters.partition fun b => b.1 = task
  set { w with
    blockingDone := (task, outcome) :: w.blockingDone
    blockingWaiters := rest
    blockingActive := none }
  wakeAll (woken.map Prod.snd)
  updatePool (·.returnToken job)

/-- Lets the script rest for a moment, so that all that can run has run. -/
def settle (f : Future .unit) : Sim Running := do
  match ← poll pollFuel f with
  | .done _ => do
    modify fun w => { w with isSettled := true }
    return .finished
  | f => return .settling f

/-- A task goes on as far as it can. -/
def advance (task : Nat) : Running → Sim Running
  | .finished => return .finished
  | .unit f => do
    match ← poll pollFuel f with
    | .done _ => return .finished
    | f => return .unit f
  | .job job f => do
    match ← poll pollFuel f with
    | .done _ => return .finished
    | f => return .job job f
  | .blocking job f => do
    match ← poll pollFuel f with
    | .done outcome => do
      blockingEnded task job outcome
      return .finished
    | f => return .blocking job f
  | .script token f => do
    match ← poll pollFuel f with
    | .done (.returned list) => do
      scriptEnded task token (.results list)
      return .finished
    | .done (.panicked _) => do
      scriptEnded task token .aborted
      return .finished
    | f => return .script token f
  | .main f => do
    match ← poll pollFuel f with
    | .done outcome => do
      let r : Script.Result :=
        match outcome with
        | .returned r => r
        | .panicked payload => .failed ⟨"panic", payload.message⟩
      modify fun w => { w with answer := some (r, w.clock) }
      let alarm ← alarmAfter (.ofMillis 1)
      settle (.wait (.alarm alarm))
    | f => return .main f
  | .settling f => settle f

/-- A task is taken away. -/
def cancel (task : Nat) : Running → Sim Unit
  | .job job f => do
    drop f
    updatePool (·.abort job)
  | .script token f => do
    drop f
    scriptEnded task token .aborted
  | _ => return ()

def setTask (id : Nat) (change : Task → Task) : Sim Unit := modify fun w =>
  match w.tasks[id]? with
  | none => w
  | some t => { w with tasks := w.tasks.set! id (change t) }

def finishTask (id : Nat) (running : Running) : Sim Unit := do
  cancel id running
  setTask id fun t => { t with running := .finished }

/-- How many things a task may take in one turn: answers, permits, results of
others, rings of a timer, and looks at what is shared. -/
def turnAllowance : Nat := 128

/-- Runs one task until it waits or ends. A task woken meanwhile runs again
later. -/
def runTask (id : Nat) : Sim Unit := do
  match (← get).tasks[id]? with
  | none => return ()
  | some t => do
    setTask id fun t => { t with isQueued := false }
    let allowance :=
      match t.running with
      | .blocking .. => none
      | _ => some turnAllowance
    modify fun w => { w with current := id, isRewoken := false, allowance }
    if t.isAborted then finishTask id t.running
    else
      let running ← advance id t.running
      setTask id fun t => { t with running }
      if ((← get).tasks[id]?).any Task.isAborted then finishTask id running
    let isRewoken := (← get).isRewoken
    modify fun w => { w with current := 0 }
    if isRewoken then wakeTask id

/-- How many tasks run before signals arrive and calls that only let others
pass go on. -/
def passingInterval : Nat := 61

/-- Signals arrive, and calls that let other tasks pass go on, the latest
first. -/
def lookAround : Sim Unit := do
  deliverSignals
  let w ← get
  set { w with deferred := [], streak := 0 }
  w.deferred.reverse.forM wakeTask

/-- Runs what can run at this instant, a task or else a piece of blocking work;
`false` if there is nothing. -/
def runNext : Sim Bool := do
  let w ← get
  if w.streak ≥ passingInterval then
    lookAround
    return true
  match w.ready with
  | id :: rest => do
    set { w with ready := rest, streak := w.streak + 1 }
    runTask id
    return true
  | [] =>
    if !w.deferred.isEmpty || !w.raised.isEmpty then
      lookAround
      return true
    set { w with streak := 0 }
    match w.blockingActive, w.blockingQueue with
    | some id, _ =>
      if (w.tasks[id]?).any Task.isQueued then
        runTask id
        return true
      else return false
    | none, id :: rest => do
      set { w with streak := 0, blockingActive := some id, blockingQueue := rest }
      runTask id
      return true
    | none, [] => return false

/-- The clock moves to the next alarm, and whoever set one for then goes on in
the order of setting. It stands still while blocking work has not ended. -/
def moveClock : Sim Bool := do
  let w ← get
  match w.blockingActive, (w.alarms.map Alarm.deadline).min? with
  | none, some deadline => do
    let (due, rest) := w.alarms.partition fun a => a.deadline ≤ deadline
    set { w with clock := max w.clock deadline, alarms := rest }
    wakeAll (due.map Alarm.ticket)
    return true
  | _, _ => return false

/-- Runs until the script has come to rest and nothing can run at that instant,
at most `turns` turns. -/
def runTurns : Nat → Sim Unit
  | 0 => return ()
  | turns + 1 => do
    if ← runNext then runTurns turns
    else if (← get).isSettled then return ()
    else if ← moveClock then runTurns turns

end EventHub.Simulation.Sim
