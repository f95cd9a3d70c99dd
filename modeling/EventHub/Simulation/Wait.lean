import EventHub.Simulation.Resume

/-!
What ends a wait. A suspended computation is looked at whenever its task runs:
it goes on if what it waits for is there, and else stands in the line of those
to be woken. One that is given up leaves every line it stands in.
-/

namespace EventHub.Simulation.Sim

open EventHub.Script

/-- Where a wait stands after it was looked at. -/
inductive Polled (a : Shape) where
  | pending (wait : Wait a)
  | next (future : Future a)

def Polled.of {a : Shape} : Future a → Polled a
  | .wait w => .pending w
  | f => .next f

/-- Waits in line until `ready`, at most once in the line. -/
def waitUntil {a : Shape} (w : Wait a) (ready : Option a.Value) (enter leave : Sim Unit) :
    Sim (Polled a) :=
  match ready with
  | some v => do
    leave
    return .next (.value v)
  | none => do
    enter
    return .pending w

def addOnce {α : Type} [DecidableEq α] (list : List α) (a : α) : List α :=
  if a ∈ list then list else list ++ [a]

/-- Leaves whatever line a wait stands in. -/
def dropWait {a : Shape} : Wait a → Sim Unit
  | .registration broker _ _ stage => do
    let orphan ← onBroker broker fun b => Registration.giveUp b stage
    discardLater broker orphan
  | .asking broker _ call => onBroker broker fun b => (b.giveUp call, ())
  | .subscribing broker call => onBroker broker fun b => (b.giveUp call, ())
  | .listing broker call => onBroker broker fun b => (b.giveUp call, ())
  | .posting broker t _ =>
    onBroker broker fun b =>
      let (mailbox, woken) := b.mailbox.leave t
      ({ b with mailbox }.wake woken, ())
  | .commands _ => return ()
  | .alarm alarm => unset alarm
  | .gate name t => modify fun w =>
    { w with gateWaiters := w.gateWaiters.filter (· ≠ (name, t)) }
  | .cancellation job t => updatePool (·.unwatch job t)
  | .shutdown t => modify fun w =>
    { w with trigger := { w.trigger with watchers := w.trigger.watchers.erase t } }
  | .interruption t => modify fun w =>
    { w with
      trigger := { w.trigger with watchers := w.trigger.watchers.erase t }
      interrupts := w.interrupts.filter fun i => i.1 ≠ t }
  | .permit job t _ => updatePool (·.unwatch job t)
  | .drained t => updatePool fun p =>
    { p with draining := p.draining.erase t, drained := p.drained.erase t }
  | .jobResult job t => updatePool fun p =>
    { p with joiners := p.joiners.filter (· ≠ (job, t)) }
  | .task task t => modify fun w =>
    { w with joinWaiters := w.joinWaiters.filter (· ≠ (task, t)) }
  | .blocking task t => modify fun w =>
    { w with blockingWaiters := w.blockingWaiters.filter (· ≠ (task, t)) }
  | .taking .. => return ()
  | .yielded .. => return ()

def blockingResult : Outcome JobResult → JobResult
  | .returned r => r
  | .panicked payload => .error (.panicked payload.message)

/-- Whether a call still has its command in hand. -/
def isSending {a : Shape} : Wait a → Bool
  | .registration _ _ _ (.reserving _ (.sending ..)) => true
  | .registration _ _ _ (.discarding ..) => true
  | .registration _ _ _ (.confirming _ (.sending ..)) => true
  | .asking _ _ (.sending ..) => true
  | .subscribing _ (.sending ..) => true
  | .listing _ (.sending ..) => true
  | .posting .. => true
  | _ => false

/-- A call whose command was accepted listens for the answer. -/
def listen {a : Shape} : Wait a → Sim Unit
  | .registration broker _ _ (.reserving _ (.awaiting t)) => hear broker t
  | .registration broker _ _ (.confirming _ (.awaiting t)) => hear broker t
  | .asking broker _ (.awaiting t) => hear broker t
  | .subscribing broker (.awaiting t) => hear broker t
  | .listing broker (.awaiting t) => hear broker t
  | _ => return ()
where
  hear (broker : Nat) (t : Ticket) : Sim Unit := onBroker broker fun b => (b.listen t, ())

/-- Counts what a look has taken, a command that was accepted or the result. -/
def taken {a : Shape} (w : Wait a) : Polled a → Sim (Polled a)
  | .next f => do
    spend 1
    return .next f
  | .pending next => do
    if isSending w && !isSending next then
      spend 1
      if ← isSpent then defer else listen next
    return .pending next

/-- Looks at something that the task takes when it is there. A task that has
taken all that it may lets others pass first. -/
def take {a : Shape} (w : Wait a) (look : Sim (Polled a)) : Sim (Polled a) := do
  if ← isSpent then
    defer
    return .pending w
  taken w (← look)

/-- The registry takes commands. -/
def workOff (broker : Nat) : Sim (Polled .unit) := do
  let most := (← get).allowance
  let (stopped, taken) ← onBroker broker
    fun b =>
      let before := b.mailbox.queue.length
      let b := b.work (most.getD (before + 1))
      (b, (b.hasStopped, before - b.mailbox.queue.length))
  if stopped then return .next (.value ())
  spend taken
  if ← isSpent then defer
  return .pending (.commands broker)

/-- Looks whether a wait is over. -/
def check {a : Shape} : Wait a → Sim (Polled a)
  | .registration broker t service stage => do
    take (.registration broker t service stage)
      (Polled.of <$> registering broker t service (Registration.resume · stage))
  | .asking broker e call => do
    take (.asking broker e call)
      (Polled.of <$> dispatching broker (Dispatch.resume · e call))
  | .subscribing broker call => do
    take (.subscribing broker call) (Polled.of <$> subscribing broker (·.resume call))
  | .listing broker call => do
    take (.listing broker call) (Polled.of <$> listing broker (·.resume call))
  | .posting broker t id => do
    take (.posting broker t id) (Polled.of <$> posting broker t id)
  | .commands broker => workOff broker
  | .alarm alarm => do
    take (.alarm alarm) do
      if ← isDue alarm then return .next (.value ()) else return .pending (.alarm alarm)
  | .permit job t body => do
    Polled.of <$> admitted job t body (← onPool (·.retry job t))
  | .taking things t => do
    let held := (← get).allowance.getD things
    spend things
    if things ≤ held then return .next (.value ())
    defer
    return .pending (.taking (things - held) t)
  | .yielded 0 _ => return .next (.value ())
  | .yielded (rounds + 1) t => do
    defer
    return .pending (.yielded rounds t)
  | .gate name t => do
    let isOpen := (← get).openGates.contains name
    waitUntil (.gate name t) (if isOpen then some () else none)
      (modify fun w => { w with gateWaiters := addOnce w.gateWaiters (name, t) })
      (dropWait (.gate name t))
  | .cancellation job t => do
    let canceled := (← get).pool.isCanceled job
    waitUntil (.cancellation job t) (if canceled then some () else none)
      (updatePool fun p => { p with watchers := addOnce p.watchers (job, t) })
      (dropWait (.cancellation job t))
  | .shutdown t => do
    let pulled := (← get).trigger.isPulled
    waitUntil (.shutdown t) (if pulled then some () else none) (watchTrigger t)
      (dropWait (.shutdown t))
  | .interruption t => do
    let w ← get
    let leave := dropWait (.interruption t)
    if w.trigger.isPulled then
      leave
      return .next (.value .requested)
    else
      match w.interrupts.lookup t with
      | some (some name) => do
        leave
        write (Startup.note .info "termination signal received" [("signal", name)])
        return .next (.value .signal)
      | _ => do
        watchTrigger t
        return .pending (.interruption t)
  | .drained t => do
    let drained := (← get).pool.isDrained t
    waitUntil (.drained t) (if drained then some () else none)
      (updatePool fun p => { p with draining := addOnce p.draining t })
      (dropWait (.drained t))
  | .jobResult job t => take (.jobResult job t) do
    waitUntil (.jobResult job t) ((← get).pool.result? job)
      (updatePool fun p => { p with joiners := addOnce p.joiners (job, t) })
      (dropWait (.jobResult job t))
  | .task task t => take (.task task t) do
    let joined : Option (Option (List Script.Result)) :=
      match (← get).joined.lookup task with
      | none => none
      | some .aborted => some none
      | some (.results list) => some (some list)
    waitUntil (.task task t) joined
      (modify fun w => { w with joinWaiters := addOnce w.joinWaiters (task, t) })
      (dropWait (.task task t))
  | .blocking task t => take (.blocking task t) do
    waitUntil (.blocking task t) (((← get).blockingDone.lookup task).map blockingResult)
      (modify fun w => { w with blockingWaiters := addOnce w.blockingWaiters (task, t) })
      (dropWait (.blocking task t))
where
  watchTrigger (t : Ticket) : Sim Unit := modify fun w =>
    { w with trigger := { w.trigger with watchers := addOnce w.trigger.watchers t } }

/-- Gives up a computation, innermost part first. -/
def drop : {a : Shape} → Future a → Sim Unit
  | _, .done _ => return ()
  | _, .begin _ => return ()
  | _, .raceClose .. => return ()
  | _, .wait w => dropWait w
  | _, .bind inner frame => do
    drop inner
    dropFrame frame
  | _, .within alarm inner => do
    drop inner
    unset alarm
  | _, .followed first others => do
    drop first
    drop others
  | _, .abandon _ alarm _ inner => do
    drop inner
    alarm.forM unset

end EventHub.Simulation.Sim
