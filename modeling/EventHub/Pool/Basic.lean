import EventHub.Config
import EventHub.Error
import EventHub.Outbox
import EventHub.Limits

/-!
A pool of background jobs. A job may have to wait for a permit before its body
runs; it ends by itself, by its deadline, or by being aborted. Shutting the
pool down cancels the token of every job and waits for all of them to end.
-/

namespace EventHub

/-- Number a pool gives to a job. -/
structure JobId where
  val : Nat
  deriving DecidableEq, Repr, Inhabited

def JobId.text (id : JobId) : String := "job-" ++ toString id.val

abbrev JobResult := Except JobError Unit

/-- How far a job has come. -/
inductive JobPhase where
  | submitted
  | waiting
  | running
  | ended (result : JobResult)

structure Job where
  id : JobId
  name : String
  phase : JobPhase := .submitted

def Job.hasEnded (j : Job) : Bool :=
  match j.phase with
  | .ended _ => true
  | _ => false

structure Pool where
  limit : Option Nat
  deadline : Option Duration
  /-- Every job ever submitted, in order. -/
  jobs : List Job := []
  isClosed : Bool := false
  /-- Permits that no job holds. -/
  free : Nat := 0
  /-- Jobs waiting for a permit, oldest first. -/
  queue : List (JobId × Ticket) := []
  /-- Jobs that were given a permit but have not gone on yet. -/
  granted : List JobId := []
  /-- Jobs between the start and the end of their body that hold a permit. -/
  holders : List JobId := []
  /-- Jobs whose body was started and has not ended, with their names. -/
  live : List (JobId × String) := []
  /-- Tokens that a shutdown cancels. -/
  children : List JobId := []
  /-- Jobs to whose tokens other code refers, once for each piece of code. -/
  borrowed : List JobId := []
  /-- Jobs whose token was cancelled. -/
  canceled : List JobId := []
  /-- Who waits for a token to be cancelled. -/
  watchers : List (JobId × Ticket) := []
  /-- Shutdowns that wait for the last job to end. -/
  draining : List Ticket := []
  /-- Shutdowns that may go on because it did. -/
  drained : List Ticket := []
  /-- Who waits for a job's result. -/
  joiners : List (JobId × Ticket) := []
  outbox : Outbox := {}

namespace Pool

def new (config : Config) : Pool :=
  { limit := config.concurrencyLimit
    deadline := config.jobDeadline
    free := config.concurrencyLimit.getD 0 }

/-- What breaks off the making of a pool: too large a limit. -/
def refusal? (config : Config) : Option Payload :=
  config.concurrencyLimit.bind Limits.permitExcess?

def wake (p : Pool) (ts : List Ticket) : Pool :=
  { p with outbox := p.outbox.wakeAll ts }

def note (p : Pool) (level : Level) (message : String) (fields : List (String × String)) :
    Pool :=
  { p with outbox := p.outbox.write { origin := .pool, level, message, fields } }

def job? (p : Pool) (id : JobId) : Option Job := p.jobs.find? (·.id = id)

def setPhase (p : Pool) (id : JobId) (phase : JobPhase) : Pool :=
  { p with jobs := p.jobs.map fun j => if j.id = id then { j with phase } else j }

/-- Jobs whose task has not ended. -/
def active (p : Pool) : List Job := p.jobs.filter (!·.hasEnded)

/-- Names of the jobs that run, sorted, duplicates kept. -/
def liveNames (p : Pool) : List String :=
  (p.live.map (·.2)).mergeSort fun a b => !(b < a)

def isCanceled (p : Pool) (id : JobId) : Bool := id ∈ p.canceled

def result? (p : Pool) (id : JobId) : Option JobResult :=
  match p.job? id with
  | some ⟨_, _, .ended r⟩ => some r
  | _ => none

def nameOf (p : Pool) (id : JobId) : String :=
  match p.job? id with
  | some j => j.name
  | none => ""

/-- Writes a record about one job. -/
def noteJob (p : Pool) (id : JobId) (level : Level) (message : String)
    (more : List (String × String)) : Pool :=
  let fields := ("job", p.nameOf id) :: ("id", id.text) :: more
  let record : Record := { origin := .pool, level, message, fields, job := some id.val }
  { p with outbox := p.outbox.write record }

def submit (p : Pool) (name : String) : Pool × JobId :=
  let id : JobId := ⟨p.jobs.length + 1⟩
  let job : Job := { id, name }
  ({ p with jobs := p.jobs ++ [job] }, id)

/-- Cancels one token and wakes those who watch it. -/
def cancelToken (p : Pool) (id : JobId) : Pool :=
  if p.isCanceled id then p
  else
    let (woken, rest) := p.watchers.partition fun w => w.1 = id
    { p with canceled := p.canceled ++ [id], watchers := rest }.wake (woken.map Prod.snd)

/-- A token leaves; its place is taken by the last one. -/
def removeLast (ids : List JobId) (id : JobId) : List JobId :=
  match ids.reverse with
  | [] => []
  | last :: restReversed =>
    let rest := restReversed.reverse
    if last = id then rest else rest.map fun other => if other = id then last else other

/-- A job no longer refers to its token, which leaves unless other code does. -/
def dropToken (p : Pool) (id : JobId) : Pool :=
  if id ∈ p.borrowed then p
  else if id ∈ p.children then { p with children := removeLast p.children id }
  else p

/-- Code that may outlive a job refers to its token. -/
def borrowToken (p : Pool) (id : JobId) : Pool :=
  { p with borrowed := id :: p.borrowed }

/-- A permit goes to the job at the head of the line, else it is free again. -/
def releasePermit (p : Pool) : Pool :=
  match p.queue with
  | [] => { p with free := p.free + 1 }
  | (id, t) :: rest =>
    { p with queue := rest, granted := p.granted ++ [id] }.wake [t]

/-- What a job's task does after it has asked for a permit. -/
inductive Admission where
  | run
  | wait
  | canceled
  deriving DecidableEq, Repr

/-- The job's body starts. -/
def startBody (p : Pool) (id : JobId) : Pool :=
  ({ p with live := p.live ++ [(id, p.nameOf id)] }.setPhase id .running).noteJob id
    .debug "job started" []

/-- The last job of a closed pool has ended: every shutdown may go on. -/
def settleDrains (p : Pool) : Pool :=
  if p.isClosed && p.active.isEmpty then
    { p with draining := [], drained := p.drained ++ p.draining }.wake p.draining
  else p

/-- The job's task is over, and whoever waits for it is told. -/
def conclude (p : Pool) (id : JobId) (result : JobResult) : Pool :=
  let p := (p.setPhase id (.ended result)).settleDrains
  let (woken, rest) := p.joiners.partition fun j => j.1 = id
  { p with joiners := rest }.wake (woken.map Prod.snd)

/-- A job that never ran is over. -/
def refuse (p : Pool) (id : JobId) : Pool :=
  (p.dropToken id).conclude id (.error .canceled)

/-- A job's task runs for the first time. -/
def begin (p : Pool) (id : JobId) (t : Ticket) : Pool × Admission :=
  let p :=
    if p.isClosed then { p with canceled := p.canceled ++ [id] }
    else { p with children := p.children ++ [id] }
  match p.limit with
  | none =>
    if p.isCanceled id then
      ((p.noteJob id .debug "job canceled before start" []).refuse id, .canceled)
    else (p.startBody id, .run)
  | some _ =>
    if p.isCanceled id then (p.refuse id, .canceled)
    else if 0 < p.free then
      ({ p with free := p.free - 1, holders := p.holders ++ [id] }.startBody id, .run)
    else
      ({ p with queue := p.queue ++ [(id, t)], watchers := p.watchers ++ [(id, t)] }.setPhase
        id .waiting, .wait)

/-- A call no longer watches a token. -/
def unwatch (p : Pool) (id : JobId) (t : Ticket) : Pool :=
  { p with watchers := p.watchers.filter (· ≠ (id, t)) }

/-- A job stops waiting for a permit; one it was given already goes on. -/
def leaveQueue (p : Pool) (id : JobId) : Pool :=
  if id ∈ p.granted then { p with granted := p.granted.erase id }.releasePermit
  else { p with queue := p.queue.filter (·.1 ≠ id) }

/-- A job that waits for a permit was woken. -/
def retry (p : Pool) (id : JobId) (t : Ticket) : Pool × Admission :=
  if p.isCanceled id then ((p.leaveQueue id).refuse id, .canceled)
  else if id ∈ p.granted then
    let p := p.unwatch id t
    ({ p with granted := p.granted.erase id, holders := p.holders ++ [id] }.startBody id, .run)
  else (p, .wait)

/-- A permit held by a job is given back. -/
def returnPermit (p : Pool) (id : JobId) : Pool :=
  if id ∈ p.holders then { p with holders := p.holders.erase id }.releasePermit else p

/-- How the body of a job ended, its deadline included. -/
inductive BodyEnd where
  | returned (result : JobResult)
  | panicked (payload : Payload)
  | overdue (deadline : Duration)

def BodyEnd.result : BodyEnd → JobResult
  | returned r => r
  | panicked payload => .error (.panicked payload.message)
  | overdue deadline => .error (.timeout deadline)

/-- What is recorded about the end of a job. -/
def noteEnd (p : Pool) (id : JobId) : JobResult → Pool
  | .ok () => p.noteJob id .debug "job finished" []
  | .error .canceled => p.noteJob id .debug "job canceled" []
  | .error e =>
    p.noteJob id .warn "job failed" [("error", e.message), ("label", e.label)]

/-- The body of a job has ended. A job that overran its deadline has its token
cancelled. -/
def finish (p : Pool) (id : JobId) (ending : BodyEnd) : Pool :=
  let p :=
    match ending with
    | .overdue _ => p.cancelToken id
    | _ => p
  let p := { p with live := p.live.filter (·.1 ≠ id) }
  let p := p.noteEnd id ending.result
  ((p.returnPermit id).dropToken id).conclude id ending.result

/-- The task of a job is taken away, wherever it stands. The names of the live
jobs are not touched: only the end of a body takes one out. -/
def abort (p : Pool) (id : JobId) : Pool :=
  match (p.job? id).map Job.phase with
  | some JobPhase.submitted => p.conclude id (.error .canceled)
  | some JobPhase.waiting => ((p.leaveQueue id).dropToken id).conclude id (.error .canceled)
  | some JobPhase.running =>
    ((p.returnPermit id).dropToken id).conclude id (.error .canceled)
  | _ => p

/-- Code that referred to a job's token has ended. -/
def returnToken (p : Pool) (id : JobId) : Pool :=
  let p := { p with borrowed := p.borrowed.erase id }
  if (p.result? id).isSome then p.dropToken id else p

/-- The order in which tokens are cancelled: the last one first, then the
others from the front. -/
def cancelOrder (tokens : List JobId) : List JobId :=
  tokens.getLast?.toList ++ tokens.dropLast

/-- Closes the pool and cancels every token. -/
def close (p : Pool) : Pool :=
  let p := { p with isClosed := true }.settleDrains
  let tokens := cancelOrder p.children
  let p := { p with children := [] }
  tokens.foldl cancelToken p

/-- What is recorded when a shutdown starts to wait. -/
def noteDrain (p : Pool) (grace : Duration) : Pool :=
  p.note .info "draining worker pool"
    [("jobs", toString p.active.length), ("running", toString p.live.length),
     ("grace", grace.text)]

/-- Whether a shutdown that waits under this ticket may go on. -/
def isDrained (p : Pool) (t : Ticket) : Bool :=
  (p.isClosed && p.active.isEmpty) || t ∈ p.drained

def drainEnded (p : Pool) : Pool :=
  p.note .info "all jobs stopped within grace" []

/-- The grace of a shutdown ran out. -/
def graceExceeded (p : Pool) (grace : Duration) : Pool × RuntimeError :=
  let stuck := p.liveNames
  (p.note .warn "grace exceeded" [("grace", grace.text), ("stuck", Text.quotedList stuck)],
    .graceExceeded grace stuck)

end Pool

end EventHub
