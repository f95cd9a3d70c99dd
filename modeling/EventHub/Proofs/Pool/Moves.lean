import EventHub.Simulation.Wait

/-!
What can happen to a pool: jobs are submitted, their tasks move from phase to
phase, shutdowns close the pool, and callers come to wait and leave. A job's task
has its own moves only, and each in its phase; so a run of a pool is any list of
moves, of which the impossible ones change nothing. For every move it is said once
what becomes of the jobs and of the list of those that live.
-/

namespace EventHub

namespace JobPhase

def isSubmitted : JobPhase → Bool
  | submitted => true
  | _ => false

def isWaiting : JobPhase → Bool
  | waiting => true
  | _ => false

/-- The body was not started, and the task has not ended. -/
def isEarly (phase : JobPhase) : Bool := phase.isSubmitted || phase.isWaiting

/-- The body was started, and the task has not ended. -/
def isRunning : JobPhase → Bool
  | running => true
  | _ => false

theorem not_running_of_early {phase : JobPhase} (h : phase.isEarly = true) :
    phase.isRunning = false := by
  cases phase with
  | running => cases h
  | _ => rfl

end JobPhase

theorem Job.not_ended_of_early {j : Job} (h : j.phase.isEarly = true) : j.hasEnded = false := by
  obtain ⟨id, name, phase⟩ := j
  cases phase with
  | ended result => cases h
  | _ => rfl

theorem Job.not_ended_of_running {j : Job} (h : j.phase.isRunning = true) :
    j.hasEnded = false := by
  obtain ⟨id, name, phase⟩ := j
  cases phase with
  | ended result => cases h
  | _ => rfl

namespace Pool

/-- What can happen to a pool. -/
inductive Move where
  | submit (name : String)
  | begin (id : JobId) (t : Ticket)
  | retry (id : JobId) (t : Ticket)
  | finish (id : JobId) (ending : BodyEnd)
  | abort (id : JobId)
  | close
  | exceed (grace : Duration)
  | borrow (id : JobId)
  | giveBack (id : JobId)
  | watch (id : JobId) (t : Ticket)
  | unwatch (id : JobId) (t : Ticket)
  | drain (t : Ticket)
  | leaveDrain (t : Ticket)
  | join (id : JobId) (t : Ticket)
  | leaveJoin (id : JobId) (t : Ticket)
  | noteDrain (grace : Duration)
  | noteDrained

/-- The job whose task a move belongs to, if it belongs to one. -/
def Move.owner? : Move → Option JobId
  | .begin id _ => some id
  | .retry id _ => some id
  | .finish id _ => some id
  | .abort id => some id
  | _ => none

/-- Whether a job is in a phase of this kind. -/
def isIn (p : Pool) (id : JobId) (kind : JobPhase → Bool) : Bool :=
  (p.job? id).any fun j => kind j.phase

/-- Whether a job's task has such a move to make. -/
def Move.isPossible (p : Pool) : Move → Bool
  | .begin id _ => p.isIn id (·.isSubmitted)
  | .retry id _ => p.isIn id (·.isWaiting)
  | .finish id _ => p.isIn id (·.isRunning)
  | _ => true

def act (p : Pool) : Move → Pool
  | .submit name => (p.submit name).1
  | .begin id t => (p.begin id t).1
  | .retry id t => (p.retry id t).1
  | .finish id ending => p.finish id ending
  | .abort id => p.abort id
  | .close => p.close
  | .exceed grace => (p.graceExceeded grace).1
  | .borrow id => p.borrowToken id
  | .giveBack id => p.returnToken id
  | .watch id t => { p with watchers := Simulation.Sim.addOnce p.watchers (id, t) }
  | .unwatch id t => p.unwatch id t
  | .drain t => { p with draining := Simulation.Sim.addOnce p.draining t }
  | .leaveDrain t => { p with draining := p.draining.erase t, drained := p.drained.erase t }
  | .join id t => { p with joiners := Simulation.Sim.addOnce p.joiners (id, t) }
  | .leaveJoin id t => { p with joiners := p.joiners.filter (· ≠ (id, t)) }
  | .noteDrain grace => p.noteDrain grace
  | .noteDrained => p.drainEnded

/-- The pool after one move; whom it woke and what it recorded is handed on. -/
def step (p : Pool) (m : Move) : Pool :=
  if m.isPossible p then { p.act m with outbox := {} } else p

def run (p : Pool) (moves : List Move) : Pool := moves.foldl step p

theorem run_append (p : Pool) (first second : List Move) :
    p.run (first ++ second) = (p.run first).run second :=
  List.foldl_append

theorem run_concat (p : Pool) (moves : List Move) (m : Move) :
    p.run (moves ++ [m]) = (p.run moves).step m := by
  rw [run_append]
  rfl

/-! ### The jobs and the living -/

/-- The jobs and the list of the living are as they were. -/
structure SameJobs (p p' : Pool) : Prop where
  jobs : p'.jobs = p.jobs
  live : p'.live = p.live

namespace SameJobs

theorem refl (p : Pool) : SameJobs p p := ⟨rfl, rfl⟩

theorem trans {p₁ p₂ p₃ : Pool} (h : SameJobs p₁ p₂) (h' : SameJobs p₂ p₃) : SameJobs p₁ p₃ :=
  ⟨h'.jobs.trans h.jobs, h'.live.trans h.live⟩

theorem since {p q q' : Pool} (h : SameJobs q q') (hjobs : q.jobs = p.jobs)
    (hlive : q.live = p.live) : SameJobs p q' :=
  ⟨h.jobs.trans hjobs, h.live.trans hlive⟩

theorem noteEnd (p : Pool) (id : JobId) (result : JobResult) :
    SameJobs p (p.noteEnd id result) := by
  rw [Pool.noteEnd.eq_def]
  split <;> exact ⟨rfl, rfl⟩

theorem cancelToken (p : Pool) (id : JobId) : SameJobs p (p.cancelToken id) := by
  rw [Pool.cancelToken]
  split <;> exact ⟨rfl, rfl⟩

theorem dropToken (p : Pool) (id : JobId) : SameJobs p (p.dropToken id) := by
  rw [Pool.dropToken]
  split
  · exact refl p
  · split <;> exact ⟨rfl, rfl⟩

theorem releasePermit (p : Pool) : SameJobs p p.releasePermit := by
  rw [Pool.releasePermit]
  split <;> exact ⟨rfl, rfl⟩

theorem returnPermit (p : Pool) (id : JobId) : SameJobs p (p.returnPermit id) := by
  rw [Pool.returnPermit]
  split
  · exact (releasePermit _).since rfl rfl
  · exact refl p

theorem leaveQueue (p : Pool) (id : JobId) : SameJobs p (p.leaveQueue id) := by
  rw [Pool.leaveQueue]
  split
  · exact (releasePermit _).since rfl rfl
  · exact ⟨rfl, rfl⟩

theorem settleDrains (p : Pool) : SameJobs p p.settleDrains := by
  rw [Pool.settleDrains]
  split <;> exact ⟨rfl, rfl⟩

theorem close (p : Pool) : SameJobs p p.close := by
  have hfold (tokens : List JobId) (q : Pool) : SameJobs q (tokens.foldl Pool.cancelToken q) := by
    induction tokens generalizing q with
    | nil => exact refl q
    | cons id rest ih => exact (cancelToken q id).trans (ih _)
  have hsettled : SameJobs p ({ p with isClosed := true }.settleDrains) :=
    (settleDrains _).since rfl rfl
  exact (hfold _ _).since hsettled.jobs hsettled.live

theorem returnToken (p : Pool) (id : JobId) : SameJobs p (p.returnToken id) := by
  rw [Pool.returnToken]
  split
  · exact (dropToken _ id).since rfl rfl
  · exact ⟨rfl, rfl⟩

theorem setPhase {p q : Pool} (h : SameJobs p q) (id : JobId) (phase : JobPhase) :
    (q.setPhase id phase).jobs = (p.setPhase id phase).jobs := by
  simp only [Pool.setPhase, h.jobs]

theorem nameOf {p q : Pool} (h : SameJobs p q) (id : JobId) : q.nameOf id = p.nameOf id := by
  simp only [Pool.nameOf, job?, h.jobs]

end SameJobs

/-- What a move makes of the jobs and of the living, whose move it is, and which
bodies it cuts short. -/
inductive Change (p p' : Pool) : Option JobId → List (JobId × String) → Prop where
  | same {owner : Option JobId} (h : SameJobs p p') : Change p p' owner []
  | submitted (name : String)
      (hjobs : p'.jobs = p.jobs ++ [{ id := ⟨p.jobs.length + 1⟩, name }])
      (hlive : p'.live = p.live) : Change p p' none []
  /-- A job whose body does not run waits for a permit, or is over. -/
  | held (id : JobId) (phase : JobPhase) (hphase : p.isIn id (·.isEarly))
      (hidle : phase.isRunning = false) (hjobs : p'.jobs = (p.setPhase id phase).jobs)
      (hlive : p'.live = p.live) : Change p p' (some id) []
  | started (id : JobId) (hphase : p.isIn id (·.isEarly))
      (hjobs : p'.jobs = (p.setPhase id .running).jobs)
      (hlive : p'.live = p.live ++ [(id, p.nameOf id)]) : Change p p' (some id) []
  | finished (id : JobId) (result : JobResult) (hphase : p.isIn id (·.isRunning))
      (hjobs : p'.jobs = (p.setPhase id (.ended result)).jobs)
      (hlive : p'.live = p.live.filter (·.1 ≠ id)) : Change p p' (some id) []
  /-- The job is over, and its name stays. -/
  | cutShort (id : JobId) (hphase : p.isIn id (·.isRunning))
      (hjobs : p'.jobs = (p.setPhase id (.ended (.error .canceled))).jobs)
      (hlive : p'.live = p.live) : Change p p' (some id) [(id, p.nameOf id)]

/-- The job whose body a move cuts short, with its name. -/
def Move.cuts (p : Pool) : Move → List (JobId × String)
  | .abort id => if p.isIn id (·.isRunning) then [(id, p.nameOf id)] else []
  | _ => []

theorem isIn_eq_true_iff (p : Pool) (id : JobId) (kind : JobPhase → Bool) :
    p.isIn id kind = true ↔ ∃ j, p.job? id = some j ∧ kind j.phase = true := by
  simp [isIn, Option.any_eq_true]

theorem isIn_mono {p : Pool} {id : JobId} {kind wider : JobPhase → Bool}
    (h : p.isIn id kind = true) (hwider : ∀ phase, kind phase = true → wider phase = true) :
    p.isIn id wider = true := by
  obtain ⟨j, hj, hkind⟩ := (p.isIn_eq_true_iff id kind).mp h
  exact (p.isIn_eq_true_iff id wider).mpr ⟨j, hj, hwider j.phase hkind⟩

theorem isIn_kept {p p' : Pool} {id : JobId} {kind : JobPhase → Bool} (h : p.isIn id kind = true)
    (hkept : ∀ j, p.job? id = some j → p'.job? id = some j) : p'.isIn id kind = true := by
  obtain ⟨j, hj, hkind⟩ := (p.isIn_eq_true_iff id kind).mp h
  exact (p'.isIn_eq_true_iff id kind).mpr ⟨j, hkept j hj, hkind⟩

/-- A job's task is over: its phase is the last thing that changes. -/
theorem conclude_jobs (p : Pool) (id : JobId) (result : JobResult) :
    (p.conclude id result).jobs = (p.setPhase id (.ended result)).jobs ∧
      (p.conclude id result).live = p.live :=
  have h := SameJobs.settleDrains (p.setPhase id (.ended result))
  ⟨h.jobs, h.live⟩

/-- A job ends without its body having come to an end. -/
theorem conclude_of_same {p q : Pool} (h : SameJobs p q) (id : JobId) (result : JobResult) :
    (q.conclude id result).jobs = (p.setPhase id (.ended result)).jobs ∧
      (q.conclude id result).live = p.live := by
  obtain ⟨hjobs, hlive⟩ := q.conclude_jobs id result
  exact ⟨hjobs.trans (h.setPhase id _), hlive.trans h.live⟩

theorem startBody_of_same {p q : Pool} (h : SameJobs p q) (id : JobId) :
    (q.startBody id).jobs = (p.setPhase id .running).jobs ∧
      (q.startBody id).live = p.live ++ [(id, p.nameOf id)] := by
  refine ⟨h.setPhase id .running, ?_⟩
  rw [← h.live, ← h.nameOf]
  rfl

theorem isIn_of_job? {p : Pool} {id : JobId} {j : Job} (h : p.job? id = some j)
    (kind : JobPhase → Bool) : p.isIn id kind = kind j.phase := by
  rw [isIn, h, Option.any_some]

theorem change_refuse {p q : Pool} (h : SameJobs p q) {id : JobId}
    (hphase : p.isIn id (·.isEarly)) : Change p (q.refuse id) (some id) [] := by
  obtain ⟨hjobs, hlive⟩ := conclude_of_same (h.trans (.dropToken q id)) id (.error .canceled)
  exact .held id _ hphase rfl hjobs hlive

theorem change_startBody {p q : Pool} (h : SameJobs p q) {id : JobId}
    (hphase : p.isIn id (·.isEarly)) : Change p (q.startBody id) (some id) [] := by
  obtain ⟨hjobs, hlive⟩ := startBody_of_same h id
  exact .started id hphase hjobs hlive

/-- A job's task that runs for the first time is refused, starts the body or waits. -/
theorem begin_cases (p : Pool) (id : JobId) (t : Ticket) :
    ∃ q, SameJobs p q ∧ (p.begin id t = (q.refuse id, .canceled) ∨
      p.begin id t = (q.startBody id, .run) ∨
      p.begin id t = (q.setPhase id .waiting, .wait)) := by
  rw [Pool.begin]
  have hsame : SameJobs p (if p.isClosed then { p with canceled := p.canceled ++ [id] }
      else { p with children := p.children ++ [id] }) := by
    split <;> exact ⟨rfl, rfl⟩
  generalize (if p.isClosed then { p with canceled := p.canceled ++ [id] }
    else { p with children := p.children ++ [id] }) = q at hsame
  have hsame' {q' : Pool} (hjobs : q'.jobs = q.jobs) (hlive : q'.live = q.live) : SameJobs p q' :=
    ⟨hjobs.trans hsame.jobs, hlive.trans hsame.live⟩
  split
  · split
    · exact ⟨q.noteJob id .debug "job canceled before start" [], hsame' rfl rfl, Or.inl rfl⟩
    · exact ⟨q, hsame, Or.inr (Or.inl rfl)⟩
  · split
    · exact ⟨q, hsame, Or.inl rfl⟩
    · split
      · exact ⟨{ q with free := q.free - 1, holders := q.holders ++ [id] }, hsame' rfl rfl,
          Or.inr (Or.inl rfl)⟩
      · exact ⟨{ q with queue := q.queue ++ [(id, t)], watchers := q.watchers ++ [(id, t)] },
          hsame' rfl rfl, Or.inr (Or.inr rfl)⟩

/-- A job that waits for a permit is refused, starts its body or goes on waiting. -/
theorem retry_cases (p : Pool) (id : JobId) (t : Ticket) :
    ∃ q, SameJobs p q ∧ (p.retry id t = (q.refuse id, .canceled) ∨
      p.retry id t = (q.startBody id, .run) ∨ p.retry id t = (q, .wait)) := by
  rw [Pool.retry]
  split
  · exact ⟨p.leaveQueue id, .leaveQueue p id, Or.inl rfl⟩
  · split
    · let q := p.unwatch id t
      exact ⟨{ q with granted := q.granted.erase id, holders := q.holders ++ [id] }, ⟨rfl, rfl⟩,
        Or.inr (Or.inl rfl)⟩
    · exact ⟨p, .refl p, Or.inr (Or.inr rfl)⟩

theorem change_begin (p : Pool) (id : JobId) (t : Ticket) (h : p.isIn id (·.isSubmitted)) :
    Change p (p.begin id t).1 (some id) [] := by
  have hearly : p.isIn id (·.isEarly) :=
    isIn_mono h fun phase hphase => by simp [JobPhase.isEarly, hphase]
  obtain ⟨q, hsame, hbegin | hbegin | hbegin⟩ := p.begin_cases id t <;> rw [hbegin]
  · exact change_refuse hsame hearly
  · exact change_startBody hsame hearly
  · exact .held id .waiting hearly rfl (hsame.setPhase id .waiting) hsame.live

theorem change_retry (p : Pool) (id : JobId) (t : Ticket) (h : p.isIn id (·.isWaiting)) :
    Change p (p.retry id t).1 (some id) [] := by
  have hearly : p.isIn id (·.isEarly) :=
    isIn_mono h fun phase hphase => by simp [JobPhase.isEarly, hphase]
  obtain ⟨q, hsame, hretry | hretry | hretry⟩ := p.retry_cases id t <;> rw [hretry]
  · exact change_refuse hsame hearly
  · exact change_startBody hsame hearly
  · exact .same hsame

theorem change_finish (p : Pool) (id : JobId) (ending : BodyEnd) (h : p.isIn id (·.isRunning)) :
    Change p (p.finish id ending) (some id) [] := by
  let removed (q : Pool) : Pool := { q with live := q.live.filter (·.1 ≠ id) }
  have hends (q : Pool) (hq : SameJobs p q) :
      Change p (((((removed q).noteEnd id ending.result).returnPermit id).dropToken id).conclude id
        ending.result) (some id) [] := by
    have hsame : SameJobs (removed p)
        ((((removed q).noteEnd id ending.result).returnPermit id).dropToken id) := by
      have hremoved : SameJobs (removed p) (removed q) :=
        ⟨hq.jobs, congrArg (List.filter fun entry => entry.1 ≠ id) hq.live⟩
      exact ((hremoved.trans (.noteEnd _ id _)).trans (.returnPermit _ id)).trans
        (.dropToken _ id)
    obtain ⟨hjobs, hlive⟩ := conclude_of_same hsame id ending.result
    exact .finished id ending.result h hjobs hlive
  cases ending with
  | returned result => exact hends p (.refl p)
  | panicked payload => exact hends p (.refl p)
  | overdue deadline => exact hends _ (.cancelToken p id)

theorem change_abort (p : Pool) (id : JobId) :
    Change p (p.abort id) (some id) (Move.cuts p (.abort id)) := by
  rw [Pool.abort, Move.cuts]
  cases hjob : p.job? id with
  | none =>
      have hcuts : p.isIn id (·.isRunning) = false := by rw [isIn, hjob]; rfl
      rw [hcuts]
      exact .same (.refl p)
  | some j =>
      rw [isIn_of_job? hjob]
      have hearly (h : j.phase.isEarly = true) : p.isIn id (·.isEarly) = true :=
        (isIn_of_job? hjob _).trans h
      simp only [Option.map_some]
      cases hphase : j.phase with
      | submitted =>
          obtain ⟨hjobs, hlive⟩ := p.conclude_jobs id (.error .canceled)
          exact .held id _ (hearly (by rw [hphase]; rfl)) rfl hjobs hlive
      | waiting =>
          obtain ⟨hjobs, hlive⟩ := conclude_of_same
            ((SameJobs.leaveQueue p id).trans (.dropToken _ id)) id (.error .canceled)
          exact .held id _ (hearly (by rw [hphase]; rfl)) rfl hjobs hlive
      | running =>
          obtain ⟨hjobs, hlive⟩ := conclude_of_same
            ((SameJobs.returnPermit p id).trans (.dropToken _ id)) id (.error .canceled)
          have hruns : p.isIn id (·.isRunning) = true := by rw [isIn_of_job? hjob, hphase]; rfl
          exact .cutShort id hruns hjobs hlive
      | ended result => exact .same (.refl p)

/-- All that a move can do to the jobs and to the living. -/
theorem change_act (p : Pool) (m : Move) (h : m.isPossible p = true) :
    Change p (p.act m) m.owner? (m.cuts p) := by
  cases m with
  | submit name => exact .submitted name rfl rfl
  | begin id t => exact change_begin p id t h
  | retry id t => exact change_retry p id t h
  | finish id ending => exact change_finish p id ending h
  | abort id => exact change_abort p id
  | close => exact .same (.close p)
  | giveBack id => exact .same (.returnToken p id)
  | _ => exact .same ⟨rfl, rfl⟩

/-- Only a submission and a job's own moves change the list of the jobs. -/
theorem sameJobs_act (p : Pool) {m : Move} (hopen : m.owner? = none)
    (hnot : ∀ name, m ≠ .submit name) : SameJobs p (p.act m) := by
  cases m with
  | submit name => exact absurd rfl (hnot name)
  | begin id t => cases hopen
  | retry id t => cases hopen
  | finish id ending => cases hopen
  | abort id => cases hopen
  | close => exact .close p
  | giveBack id => exact .returnToken p id
  | _ => exact ⟨rfl, rfl⟩

/-! ### Who keeps what -/

theorem job?_setPhase (p : Pool) (id other : JobId) (phase : JobPhase) :
    (p.setPhase id phase).job? other =
      (p.job? other).map fun j => if j.id = id then { j with phase } else j := by
  have hid : ((fun j : Job => decide (j.id = other)) ∘
      fun j : Job => if j.id = id then { j with phase } else j) =
      fun j : Job => decide (j.id = other) := by
    funext j
    by_cases h : j.id = id <;> simp [h]
  simp only [setPhase, job?, List.find?_map, hid]

/-- What is not a job's own move leaves every job where it stands. -/
theorem Change.job?_kept {p p' : Pool} {cut : List (JobId × String)} (h : Change p p' none cut)
    {id : JobId} {j : Job} (hj : p.job? id = some j) : p'.job? id = some j := by
  cases h with
  | same hsame =>
      rw [job?, hsame.jobs]
      exact hj
  | submitted name hjobs hlive =>
      rw [job?] at hj
      rw [job?, hjobs, List.find?_append, hj, Option.some_or]

/-- A job's own move leaves every other job where it stands. -/
theorem Change.job?_other {p p' : Pool} {id other : JobId} {cut : List (JobId × String)}
    (h : Change p p' (some id) cut) (hne : other ≠ id) : p'.job? other = p.job? other := by
  have hset (phase : JobPhase) (hjobs : p'.jobs = (p.setPhase id phase).jobs) :
      p'.job? other = p.job? other := by
    have hjob : p'.job? other = (p.setPhase id phase).job? other := by simp only [job?, hjobs]
    rw [hjob, job?_setPhase]
    cases hfound : p.job? other with
    | none => rfl
    | some j =>
        have hid : j.id = other := by simpa using List.find?_some hfound
        rw [Option.map_some, if_neg (hid ▸ hne)]
  cases h with
  | same hsame => simp only [job?, hsame.jobs]
  | held _ phase _ _ hjobs _ => exact hset phase hjobs
  | started _ _ hjobs _ => exact hset _ hjobs
  | finished _ result _ hjobs _ => exact hset _ hjobs
  | cutShort _ _ hjobs _ => exact hset _ hjobs

/-- A job's own move makes no job known. -/
theorem Change.isSome_job?_before {p p' : Pool} {owner id : JobId} {cut : List (JobId × String)}
    (h : Change p p' (some owner) cut) (hknown : (p'.job? id).isSome) : (p.job? id).isSome := by
  have hset (phase : JobPhase) (hjobs : p'.jobs = (p.setPhase owner phase).jobs) :
      (p.job? id).isSome := by
    have hjob : p'.job? id = (p.setPhase owner phase).job? id := by simp only [job?, hjobs]
    rwa [hjob, job?_setPhase, Option.isSome_map] at hknown
  cases h with
  | same hsame =>
      rw [job?, hsame.jobs] at hknown
      exact hknown
  | held _ phase _ _ hjobs _ => exact hset phase hjobs
  | started _ _ hjobs _ => exact hset _ hjobs
  | finished _ result _ hjobs _ => exact hset _ hjobs
  | cutShort _ _ hjobs _ => exact hset _ hjobs

/-- A job is still known after its own move. -/
theorem Change.isSome_job? {p p' : Pool} {owner : Option JobId} {cut : List (JobId × String)}
    (h : Change p p' owner cut) {id : JobId} (hknown : (p.job? id).isSome) :
    (p'.job? id).isSome := by
  have hset (who : JobId) (phase : JobPhase) (hjobs : p'.jobs = (p.setPhase who phase).jobs) :
      (p'.job? id).isSome := by
    have hjob : p'.job? id = (p.setPhase who phase).job? id := by simp only [job?, hjobs]
    rw [hjob, job?_setPhase, Option.isSome_map]
    exact hknown
  cases h with
  | same hsame =>
      rw [job?, hsame.jobs]
      exact hknown
  | submitted name hjobs hlive =>
      rw [job?] at hknown
      rw [job?, hjobs, List.find?_append, Option.isSome_or, hknown, Bool.true_or]
  | held who phase _ _ hjobs _ => exact hset who phase hjobs
  | started who _ hjobs _ => exact hset who _ hjobs
  | finished who result _ hjobs _ => exact hset who _ hjobs
  | cutShort who _ hjobs _ => exact hset who _ hjobs

theorem isIn_setPhase {p : Pool} {id : JobId} (h : (p.job? id).isSome) (phase : JobPhase)
    (kind : JobPhase → Bool) : (p.setPhase id phase).isIn id kind = kind phase := by
  obtain ⟨j, hj⟩ := Option.isSome_iff_exists.mp h
  have hid : j.id = id := by simpa using List.find?_some hj
  rw [isIn, job?_setPhase, hj, Option.map_some, if_pos hid, Option.any_some]

/-- Where a job stands that got such an answer to its request for a permit. -/
def Admission.Places (p : Pool) (id : JobId) : Admission → Prop
  | .run => p.isIn id (·.isRunning) = true
  | .wait => p.isIn id (·.isWaiting) = true
  | .canceled => True

theorem SameJobs.isSome_job? {p q : Pool} (h : SameJobs p q) {id : JobId}
    (hknown : (p.job? id).isSome) : (q.job? id).isSome := by
  rw [job?, h.jobs]
  exact hknown

theorem isSome_of_isIn {p : Pool} {id : JobId} {kind : JobPhase → Bool}
    (h : p.isIn id kind = true) : (p.job? id).isSome := by
  obtain ⟨j, hj, -⟩ := (p.isIn_eq_true_iff id kind).mp h
  rw [hj]
  rfl

theorem SameJobs.places {p q : Pool} (h : SameJobs p q) {id : JobId} {admission : Admission}
    (hplaces : admission.Places p id) : admission.Places q id := by
  cases admission with
  | canceled => trivial
  | _ =>
      rw [Admission.Places, isIn, job?, h.jobs]
      exact hplaces

theorem places_begin {p : Pool} {id : JobId} (h : p.isIn id (·.isSubmitted) = true) (t : Ticket) :
    (p.begin id t).2.Places (p.begin id t).1 id := by
  obtain ⟨q, hsame, hbegin | hbegin | hbegin⟩ := p.begin_cases id t <;> rw [hbegin]
  · trivial
  · exact isIn_setPhase (hsame.isSome_job? (isSome_of_isIn h)) .running (·.isRunning)
  · exact isIn_setPhase (hsame.isSome_job? (isSome_of_isIn h)) .waiting (·.isWaiting)

theorem places_retry {p : Pool} {id : JobId} (h : p.isIn id (·.isWaiting) = true) (t : Ticket) :
    (p.retry id t).2.Places (p.retry id t).1 id := by
  obtain ⟨q, hsame, hretry | hretry | hretry⟩ := p.retry_cases id t <;> rw [hretry]
  · trivial
  · exact isIn_setPhase (hsame.isSome_job? (isSome_of_isIn h)) .running (·.isRunning)
  · have hwaits : Admission.Places p id .wait := h
    exact hsame.places hwaits

end Pool

end EventHub
