import EventHub.Proofs.Stores.Acts

/-!
Where the tasks stand. The course of a job is in the hands of its task: the task asks
for the permit, runs the body and says that it has ended, and what it runs tells in
which phase the job is. All other code holds nothing of a job's course, so what it
does leaves every job where it stands.
-/

namespace EventHub.Simulation

variable {a b : Shape}

/-! ### What belongs to a job's course -/

def Begin.isJobless : Begin a → Bool
  | .task .. => false
  | .finishJob .. => false
  | _ => true

def Wait.isJobless : Wait a → Bool
  | .permit .. => false
  | _ => true

def Frame.isJobless : Frame a b → Bool
  | .andThen next => next.isJobless
  | .bodyEnd .. => false
  | _ => true

/-- Nothing in the computation is part of a job's course. -/
def Future.isJobless : {a : Shape} → Future a → Bool
  | _, .done _ => true
  | _, .begin b => b.isJobless
  | _, .wait w => w.isJobless
  | _, .bind inner frame => inner.isJobless && frame.isJobless
  | _, .within _ inner => inner.isJobless
  | _, .followed first others => first.isJobless && others.isJobless
  | _, .raceClose .. => true
  | _, .abandon _ _ _ inner => inner.isJobless

theorem Future.isJobless_bind {inner : Future a} {frame : Frame a b} :
    (Future.bind inner frame).isJobless = true ↔
      inner.isJobless = true ∧ frame.isJobless = true :=
  Bool.and_eq_true_iff

theorem Future.isJobless_followed {first : Future .result} {others : Future .results} :
    (Future.followed first others).isJobless = true ↔
      first.isJobless = true ∧ others.isJobless = true :=
  Bool.and_eq_true_iff

theorem Future.isJobless_map {inner : Future a} (f : a.Value → b.Value) :
    (inner.map f).isJobless = inner.isJobless :=
  Bool.and_true _

/-- What the task of a job runs, by the phase of the job. -/
inductive JobCourse (p : Pool) (id : JobId) : Future .job → Prop where
  | submitted (body : JobBody) (h : p.isIn id (·.isSubmitted)) :
      JobCourse p id (.begin (.task id body))
  | waiting (t : Ticket) (body : JobBody) (h : p.isIn id (·.isWaiting)) :
      JobCourse p id (.wait (.permit id t body))
  | running (body : Future (.maybe .job)) (deadline : Option Duration)
      (hbody : body.isJobless = true) (h : p.isIn id (·.isRunning)) :
      JobCourse p id (.bind body (.bodyEnd id deadline))
  /-- The body has ended, and the task takes what it needs to say so. -/
  | ending (taking : Future .unit) (ending : Pool.BodyEnd) (htaking : taking.isJobless = true)
      (h : p.isIn id (·.isRunning)) :
      JobCourse p id (.bind taking (.andThen (.finishJob id ending)))
  | finishing (ending : Pool.BodyEnd) (h : p.isIn id (·.isRunning)) :
      JobCourse p id (.begin (.finishJob id ending))
  | ended (outcome : Outcome JobResult) : JobCourse p id (.done outcome)

def Running.job? : Running → Option JobId
  | .job id _ => some id
  | _ => none

def Running.isJobless : Running → Bool
  | .unit f => f.isJobless
  | .job .. => false
  | .blocking _ f => f.isJobless
  | .script _ f => f.isJobless
  | .main f => f.isJobless
  | .settling f => f.isJobless
  | .finished => true

/-- What a task runs agrees with the pool. -/
def Running.Stands (p : Pool) : Running → Prop
  | .job id f => JobCourse p id f
  | r => r.isJobless = true

theorem Running.stands_of_isJobless {r : Running} (h : r.isJobless = true) (p : Pool) :
    r.Stands p := by
  cases r with
  | job id f => cases h
  | _ => exact h

theorem Running.job?_of_isJobless {r : Running} (h : r.isJobless = true) : r.job? = none := by
  cases r with
  | job id f => cases h
  | _ => rfl

/-! ### Jobs that stay where they stand -/

section

variable {p p' : Pool} {id : JobId}

theorem JobCourse.kept {f : Future .job} (h : JobCourse p id f)
    (hkept : ∀ j, p.job? id = some j → p'.job? id = some j) : JobCourse p' id f := by
  cases h with
  | submitted body h => exact .submitted body (Pool.isIn_kept h hkept)
  | waiting t body h => exact .waiting t body (Pool.isIn_kept h hkept)
  | running body deadline hbody h => exact .running body deadline hbody (Pool.isIn_kept h hkept)
  | ending taking ending htaking h => exact .ending taking ending htaking (Pool.isIn_kept h hkept)
  | finishing ending h => exact .finishing ending (Pool.isIn_kept h hkept)
  | ended outcome => exact .ended outcome

theorem Running.Stands.kept {r : Running} (h : r.Stands p)
    (hkept : ∀ id, r.job? = some id → ∀ j, p.job? id = some j → p'.job? id = some j) :
    r.Stands p' := by
  cases r with
  | job id f => exact JobCourse.kept h (hkept id rfl)
  | _ => exact h

end

/-! ### All tasks at once -/

/-- Every task stands where its job does, a job has one task, and the pool is one that
moves have led to. The running task, if there is one, is on its own account. -/
structure InStep (i : Option Nat) (w : World) : Prop where
  pool : ∃ config moves, w.pool = (Pool.new config).run moves
  stands : ∀ (j : Nat) (task : Task), i ≠ some j → w.tasks[j]? = some task →
    task.running.Stands w.pool
  known : ∀ (j : Nat) (task : Task) (id : JobId), w.tasks[j]? = some task →
    task.running.job? = some id → (w.pool.job? id).isSome = true
  apart : ∀ (j j' : Nat) (task task' : Task) (id : JobId), w.tasks[j]? = some task →
    w.tasks[j']? = some task' → task.running.job? = some id → task'.running.job? = some id → j = j'

/-- The tasks run what they ran. -/
def SameTasks (w w' : World) : Prop :=
  ∀ j : Nat, (w'.tasks[j]?).map Task.running = (w.tasks[j]?).map Task.running

theorem SameTasks.of_eq {w w' : World} (h : w'.tasks = w.tasks) : SameTasks w w' := by
  intro j
  rw [h]

theorem SameTasks.back {w w' : World} (h : SameTasks w w') {j : Nat} {task' : Task}
    (htask : w'.tasks[j]? = some task') :
    ∃ task, w.tasks[j]? = some task ∧ task.running = task'.running := by
  have hrunning := h j
  rw [htask, Option.map_some] at hrunning
  exact Option.map_eq_some_iff.mp hrunning.symm

/-- A task is changed without what it runs. -/
theorem SameTasks.set_task {w : World} {i : Nat} {task task' : Task}
    (htask : w.tasks[i]? = some task) (hrunning : task'.running = task.running) :
    SameTasks w { w with tasks := w.tasks.set! i task' } := by
  intro j
  by_cases hj : i = j
  · subst hj
    rw [getElem?_set_self htask, htask, Option.map_some, Option.map_some, hrunning]
  · rw [getElem?_set_other hj]

/-- Neither the stores change nor what the tasks run. -/
structure Aside (w w' : World) : Prop where
  stores : w'.stores = w.stores
  tasks : SameTasks w w'

namespace Aside

variable {w w' w'' : World}

theorem of_eq (hstores : w'.stores = w.stores) (htasks : w'.tasks = w.tasks) : Aside w w' :=
  ⟨hstores, .of_eq htasks⟩

theorem refl (w : World) : Aside w w := of_eq rfl rfl

theorem trans (h : Aside w w') (h' : Aside w' w'') : Aside w w'' :=
  ⟨h'.stores.trans h.stores, fun j => (h'.tasks j).trans (h.tasks j)⟩

end Aside

namespace InStep

variable {i : Option Nat} {w w' : World}

/-- The tasks keep step while the pool moves on, if it leaves the jobs of those that
wait where they stand. -/
theorem of_kept (h : InStep i w) (hpool : ∃ moves, w'.pool = w.pool.run moves)
    (hknown : ∀ id, (w.pool.job? id).isSome = true → (w'.pool.job? id).isSome = true)
    (hkept : ∀ (j : Nat) (task : Task) (id : JobId), i ≠ some j → w.tasks[j]? = some task →
      task.running.job? = some id → ∀ job, w.pool.job? id = some job → w'.pool.job? id = some job)
    (htasks : SameTasks w w') : InStep i w' := by
  constructor
  case pool =>
    obtain ⟨config, moves, hrun⟩ := h.pool
    obtain ⟨more, hmore⟩ := hpool
    refine ⟨config, moves ++ more, ?_⟩
    rw [Pool.run_append, ← hrun]
    exact hmore
  case stands =>
    intro j task' hj htask'
    obtain ⟨task, htask, hrunning⟩ := htasks.back htask'
    rw [← hrunning]
    exact (h.stands j task hj htask).kept fun id => hkept j task id hj htask
  case known =>
    intro j task' id htask' hid
    obtain ⟨task, htask, hrunning⟩ := htasks.back htask'
    exact hknown id (h.known j task id htask (hrunning ▸ hid))
  case apart =>
    intro j j' task₁ task₂ id htask₁ htask₂ hid₁ hid₂
    obtain ⟨task₁', htask₁', hrunning₁⟩ := htasks.back htask₁
    obtain ⟨task₂', htask₂', hrunning₂⟩ := htasks.back htask₂
    exact h.apart j j' task₁' task₂' id htask₁' htask₂' (hrunning₁ ▸ hid₁) (hrunning₂ ▸ hid₂)

/-- Code that makes no job's own move, and no task, keeps step. -/
theorem of_acts (h : InStep i w) (hacts : Acts Pool.Move.IsOpen w.stores w'.stores)
    (htasks : SameTasks w w') : InStep i w' := by
  have hkept (id : JobId) (j : Job) (hj : w.pool.job? id = some j) : w'.pool.job? id = some j :=
    hacts.job?_kept hj
  refine h.of_kept hacts.pool (fun id hid => ?_) (fun _ _ id _ _ _ => hkept id) htasks
  obtain ⟨j, hj⟩ := Option.isSome_iff_exists.mp hid
  rw [hkept id j hj]
  rfl

/-- A task is added, for a job that has none if it is for a job. -/
theorem push (h : InStep i w) {r : Running} (hstands : r.Stands w.pool)
    (hknown : ∀ id, r.job? = some id → (w.pool.job? id).isSome = true)
    (hnew : ∀ id, r.job? = some id → ∀ (j : Nat) (task : Task), w.tasks[j]? = some task →
      task.running.job? ≠ some id) (isQueued : Bool) :
    InStep i { w with tasks := w.tasks.push { running := r, isQueued } } := by
  constructor
  case pool => exact h.pool
  case stands =>
    intro j task hj htask
    rw [Array.getElem?_push] at htask
    split at htask
    · cases htask
      exact hstands
    · exact h.stands j task hj htask
  case known =>
    intro j task id htask hid
    rw [Array.getElem?_push] at htask
    split at htask
    · cases htask
      exact hknown id hid
    · exact h.known j task id htask hid
  case apart =>
    intro j j' task task' id htask htask' hid hid'
    rw [Array.getElem?_push] at htask htask'
    split at htask
    · cases htask
      split at htask'
      · rename_i hj hj'
        exact hj.trans hj'.symm
      · exact absurd hid' (hnew id hid j' task' htask')
    · split at htask'
      · cases htask'
        exact absurd hid (hnew id hid' j task htask)
      · exact h.apart j j' task task' id htask htask' hid hid'

end InStep

/-- A task was added for the job, and has not begun. -/
def World.Awaiting (w : World) (id : JobId) : Prop :=
  ∃ (j : Nat) (task : Task) (body : JobBody), w.tasks[j]? = some task ∧
    task.running = .job id (.begin (.task id body))

/-- What code comes to that may make such moves: acts on the stores, after which the
tasks run what they ran and keep step. A job that has become known has a task. -/
structure Proceeds (may : Pool.Move → Prop) (i : Option Nat) (w w' : World) : Prop where
  acts : Acts may w.stores w'.stores
  kept : ∀ (j : Nat) (task : Task), w.tasks[j]? = some task →
    ∃ task', w'.tasks[j]? = some task' ∧ task'.running = task.running
  inStep : InStep i w → InStep i w'
  added : ∀ id, (w'.pool.job? id).isSome = true →
    (w.pool.job? id).isSome = true ∨ w'.Awaiting id

namespace Proceeds

variable {may wider : Pool.Move → Prop} {i : Option Nat} {w w' w'' : World}

theorem trans (h : Proceeds may i w w') (h' : Proceeds may i w' w'') : Proceeds may i w w'' := by
  refine ⟨h.acts.trans h'.acts, ?_, fun hstep => h'.inStep (h.inStep hstep), ?_⟩
  · intro j task htask
    obtain ⟨task', htask', hrunning⟩ := h.kept j task htask
    obtain ⟨task'', htask'', hrunning'⟩ := h'.kept j task' htask'
    exact ⟨task'', htask'', hrunning'.trans hrunning⟩
  · intro id hid
    rcases h'.added id hid with hknown | hadded
    · exact (h.added id hknown).imp_right fun ⟨j, task, body, htask, hrunning⟩ =>
        have ⟨task', htask', hrunning'⟩ := h'.kept j task htask
        ⟨j, task', body, htask', hrunning'.trans hrunning⟩
    · exact Or.inr hadded

theorem widen (h : Proceeds may i w w') (hwider : ∀ m, may m → wider m) : Proceeds wider i w w' :=
  ⟨h.acts.widen hwider, h.kept, h.inStep, h.added⟩

theorem of_acts (hacts : Acts Pool.Move.IsOpen w.stores w'.stores) (htasks : SameTasks w w')
    (hjobs : w'.pool.jobs = w.pool.jobs) : Proceeds Pool.Move.IsOpen i w w' := by
  refine ⟨hacts, ?_, fun h => h.of_acts hacts htasks, fun id hid => ?_⟩
  · intro j task htask
    have hrunning := htasks j
    rw [htask, Option.map_some] at hrunning
    exact Option.map_eq_some_iff.mp hrunning
  · rw [Pool.job?, hjobs] at hid
    exact Or.inl hid

theorem aside (h : Aside w w') : Proceeds Pool.Move.IsOpen i w w' :=
  of_acts (.of_eq h.stores) h.tasks (congrArg (·.pool.jobs) h.stores)

/-- What changes neither the stores nor the tasks. -/
theorem beside (hstores : w'.stores = w.stores) (htasks : w'.tasks = w.tasks) :
    Proceeds Pool.Move.IsOpen i w w' :=
  aside (.of_eq hstores htasks)

theorem refl (w : World) : Proceeds Pool.Move.IsOpen i w w := aside (.refl w)

instance (i : Option Nat) : IsPreorder World (Proceeds Pool.Move.IsOpen i) where
  refl := refl
  trans _ _ _ := trans

/-- A single act, with no task touched. -/
theorem act (h : Act Pool.Move.IsOpen w.stores w'.stores) (htasks : w'.tasks = w.tasks)
    (hjobs : w'.pool.jobs = w.pool.jobs) : Proceeds Pool.Move.IsOpen i w w' :=
  of_acts (.one h) (.of_eq htasks) hjobs

/-- A task is added that has nothing to do with a job's course. -/
theorem push {r : Running} (hr : r.isJobless = true) (isQueued : Bool) :
    Proceeds Pool.Move.IsOpen i w { w with tasks := w.tasks.push { running := r, isQueued } } := by
  have hnone (id : JobId) : r.job? ≠ some id := by
    rw [Running.job?_of_isJobless hr]
    intro h
    cases h
  refine ⟨.refl _, ?_, fun h => h.push (Running.stands_of_isJobless hr _) ?_ ?_ isQueued,
    fun id hid => Or.inl hid⟩
  · intro j task htask
    obtain ⟨hlt, -⟩ := Array.getElem?_eq_some_iff.mp htask
    exact ⟨task, (Array.getElem?_push_lt hlt).trans
      ((Array.getElem?_eq_getElem hlt).symm.trans htask), rfl⟩
  · exact fun id hid => absurd hid (hnone id)
  · exact fun id hid => absurd hid (hnone id)

end Proceeds

end EventHub.Simulation
