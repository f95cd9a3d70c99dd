import EventHub.Proofs.Stores.Poll

/-!
The course of a job. The task that was added for it asks for a permit when it runs for
the first time, waits for one, runs the body and says that the body has ended; each of
these is a move of the pool that only this task makes, and it finds the job in the
phase that the move needs.
-/

namespace EventHub.Simulation

open EventHub.Script

/-- The task belongs to a job. -/
def Serves (i : Nat) (id : JobId) (w : World) : Prop :=
  ∃ task, w.tasks[i]? = some task ∧ task.running.job? = some id

variable {i : Nat} {id : JobId} {w w' : World}

theorem Proceeds.serves {may : Pool.Move → Prop} {k : Option Nat} (h : Proceeds may k w w')
    (hserves : Serves i id w) : Serves i id w' := by
  obtain ⟨task, htask, hid⟩ := hserves
  obtain ⟨task', htask', hrunning⟩ := h.kept i task htask
  exact ⟨task', htask', hrunning ▸ hid⟩

/-- A job's own move is made by its task, and concerns no other. -/
theorem Proceeds.own {α : Type} (act : Pool → Pool × α) (hserves : Serves i id w) (m : Pool.Move)
    (howner : m.owner? = some id) (hpossible : m.isPossible w.pool = true)
    (hact : (act w.pool).1 = w.pool.act m) :
    Proceeds (Pool.Move.IsOpenTo id) (some i) w ((Sim.onPool act).run w).2 := by
  obtain ⟨-, haside⟩ := Sim.onPool_run act w
  have hstep : w.pool.step m = { (act w.pool).1 with outbox := {} } := by
    rw [Pool.step, if_pos hpossible, hact]
  have hpool : ((Sim.onPool act).run w).2.pool = w.pool.step m :=
    (congrArg Stores.pool haside.stores).trans hstep.symm
  have hchange : Pool.Change w.pool (w.pool.act m) (some id) (m.cuts w.pool) :=
    howner ▸ Pool.change_act w.pool m hpossible
  have hjobs (other : JobId) :
      ((Sim.onPool act).run w).2.pool.job? other = (w.pool.act m).job? other := by
    rw [hpool, Pool.step, if_pos hpossible]
    rfl
  refine ⟨?acts, ?kept, fun h => h.of_kept ?pool ?known ?others haside.tasks, ?added⟩
  case acts =>
    have hmove : Act (Pool.Move.IsOpenTo id) w.stores
        { w.stores with pool := w.stores.pool.step m } := .pool m (Or.inr howner) hpossible
    rw [show w.stores.pool.step m = _ from hstep] at hmove
    rw [haside.stores]
    exact .one hmove
  case kept =>
    intro j task htask
    have hrunning := haside.tasks j
    rw [show w.tasks[j]? = _ from htask, Option.map_some] at hrunning
    exact Option.map_eq_some_iff.mp hrunning
  case pool => exact ⟨[m], hpool⟩
  case known =>
    intro other hknown
    rw [hjobs]
    exact hchange.isSome_job? hknown
  case added =>
    intro other hknown
    rw [hjobs] at hknown
    exact Or.inl (hchange.isSome_job?_before hknown)
  case others =>
    intro j task other hj htask hother job hjob
    have hne : other ≠ id := by
      rintro rfl
      obtain ⟨mine, hmine, hid⟩ := hserves
      exact hj (congrArg some (h.apart i j mine task other hmine htask hid hother))
    rw [hjobs, hchange.job?_other hne]
    exact hjob

namespace Sim

/-- From this world, the task of a job follows the job's course. -/
def Follows (i : Nat) (id : JobId) (w : World) (m : Sim (Future .job)) : Prop :=
  Proceeds (Pool.Move.IsOpenTo id) (some i) w (m.run w).2 ∧
    JobCourse (m.run w).2.pool id (m.run w).1

theorem Follows.bind {α : Type} {m : Sim α} {f : α → Sim (Future .job)}
    (hm : Proceeds (Pool.Move.IsOpenTo id) (some i) w (m.run w).2)
    (hf : Follows i id (m.run w).2 (f (m.run w).1)) : Follows i id w (m >>= f) :=
  ⟨hm.trans hf.1, hf.2⟩

/-- What is done meanwhile leaves the job where it stands. -/
theorem isIn_goes {kind : JobPhase → Bool} {k : Option Nat} (h : w.pool.isIn id kind = true)
    (hgoes : Proceeds Pool.Move.IsOpen k w w') : w'.pool.isIn id kind = true :=
  Pool.isIn_kept h fun _ => hgoes.acts.job?_kept

theorem proceeds_own {k : Option Nat} (h : Proceeds Pool.Move.IsOpen k w w') :
    Proceeds (Pool.Move.IsOpenTo id) k w w' :=
  h.widen fun _ => Or.inl

/-- A computation that makes no move of the job's own, and goes on with the course. -/
theorem Follows.of_yields {m : Sim (Future .job)} {Q : Future .job → Prop}
    (hm : Yields (some i) Q m) {kind : JobPhase → Bool} (h : w.pool.isIn id kind = true)
    (hcourse : ∀ f p, Q f → p.isIn id kind = true → JobCourse p id f) : Follows i id w m :=
  ⟨proceeds_own (hm w).1, hcourse _ _ (hm w).2 (isIn_goes h (hm w).1)⟩

/-- A body that runs under the pool's deadline, with the end of the job after it. -/
def RunsBody (id : JobId) (f : Future .job) : Prop :=
  ∃ (body : Future (.maybe .job)) (deadline : Option Duration),
    f = .bind body (.bodyEnd id deadline) ∧ body.isJobless = true

theorem yields_runBody (k : Option Nat) (id : JobId) (b : JobBody) :
    Yields k (RunsBody id) (runBody id b) := by
  refine .bind .get fun w => ?_
  split
  · exact .pure ⟨_, _, rfl, rfl⟩
  · exact .bind (does_alarmAfter _) fun alarm => .pure ⟨_, _, rfl, rfl⟩

theorem follows_admitted (t : Ticket) (b : JobBody) (admission : Pool.Admission)
    (h : admission.Places w.pool id) : Follows i id w (admitted id t b admission) := by
  cases admission with
  | run =>
      have hyields : Yields (some i) (RunsBody id) (admitted id t b .run) :=
        .bind .get fun w => .bind (does_spend _) fun _ => yields_runBody _ id b
      refine .of_yields hyields h fun f p hf hp => ?_
      obtain ⟨body, deadline, rfl, hbody⟩ := hf
      exact .running body deadline hbody hp
  | wait =>
      have hyields : Yields (some i) (fun f => f = .wait (.permit id t b))
          (admitted id t b .wait) := .pure rfl
      refine .of_yields hyields h fun f p hf hp => ?_
      rw [hf]
      exact .waiting t b hp
  | canceled => exact ⟨proceeds_own (.refl w), .ended _⟩

/-- The task asks for a permit, and stands by the answer. -/
theorem follows_asked (act : Pool → Pool × Pool.Admission) (hserves : Serves i id w)
    (m : Pool.Move) (howner : m.owner? = some id) (hpossible : m.isPossible w.pool = true)
    (hact : (act w.pool).1 = w.pool.act m) (hplaces : (act w.pool).2.Places (act w.pool).1 id)
    (t : Ticket) (b : JobBody) : Follows i id w (onPool act >>= admitted id t b) := by
  obtain ⟨hanswer, haside⟩ := onPool_run act w
  refine .bind (.own act hserves m howner hpossible hact) (follows_admitted t b _ ?_)
  have hpool : ((onPool act).run w).2.pool = { (act w.pool).1 with outbox := {} } :=
    congrArg Stores.pool haside.stores
  have hsame : Pool.SameJobs (act w.pool).1 ((onPool act).run w).2.pool := by
    rw [hpool]
    exact ⟨rfl, rfl⟩
  rw [hanswer]
  exact hsame.places hplaces

theorem follows_task (hserves : Serves i id w) (h : w.pool.isIn id (·.isSubmitted) = true)
    (b : JobBody) : Follows i id w (Sim.begin (.task id b)) := by
  rw [Sim.begin]
  have hticket : Proceeds Pool.Move.IsOpen (some i) w (ticket.run w).2 := does_ticket w
  refine .bind (proceeds_own hticket) ?_
  have hsubmitted := isIn_goes h hticket
  exact follows_asked (·.begin id _) (hticket.serves hserves) (.begin id _) rfl hsubmitted rfl
    (Pool.places_begin hsubmitted _) _ b

theorem follows_finish (hserves : Serves i id w) (h : w.pool.isIn id (·.isRunning) = true)
    (ending : Pool.BodyEnd) : Follows i id w (Sim.begin (.finishJob id ending)) := by
  rw [Sim.begin]
  have hown : Proceeds (Pool.Move.IsOpenTo id) (some i) w
      ((updatePool (·.finish id ending)).run w).2 :=
    .own (fun p => (p.finish id ending, ())) hserves (.finish id ending) rfl h rfl
  exact ⟨hown, .ended _⟩

/-- The body has ended, and the task takes what it needs to say so. -/
theorem follows_bodyEnd (h : w.pool.isIn id (·.isRunning) = true) (deadline : Option Duration)
    (outcome : Outcome (Option JobResult)) :
    Follows i id w (resume (.bodyEnd id deadline) outcome) := by
  have htaking (ending : Pool.BodyEnd) : Follows i id w (taking 1 (.finishJob id ending)) := by
    have hyields : Yields (some i) (fun f => ∃ taken : Future .unit,
        f = .bind taken (.andThen (.finishJob id ending)) ∧ taken.isJobless = true)
        (taking 1 (.finishJob id ending)) := .bind does_ticket fun t => .pure ⟨_, rfl, rfl⟩
    refine .of_yields hyields h fun f p hf hp => ?_
    obtain ⟨taken, rfl, htaken⟩ := hf
    exact .ending taken ending htaken hp
  cases outcome with
  | panicked payload =>
      rw [resume]
      exact htaking _
  | returned v =>
      cases v with
      | none =>
          rw [resume]
          exact htaking _
      | some result =>
          rw [resume]
          exact htaking _

theorem follows_andThen (h : w.pool.isIn id (·.isRunning) = true) (ending : Pool.BodyEnd)
    (outcome : Outcome Unit) :
    Follows i id w (resume (.andThen (.finishJob id ending)) outcome) := by
  cases outcome with
  | returned v =>
      rw [resume]
      exact ⟨proceeds_own (.refl w), .finishing ending h⟩
  | panicked payload => exact ⟨proceeds_own (.refl w), .ended _⟩

/-- However far the task of a job goes, it follows the job's course. -/
theorem follows_poll (n : Nat) {f : Future .job} (hcourse : JobCourse w.pool id f)
    (hserves : Serves i id w) : Follows i id w (poll n f) := by
  induction n generalizing f w with
  | zero => exact ⟨proceeds_own (.refl w), hcourse⟩
  | succ n ih =>
      have hnext {w : World} {m : Sim (Future .job)} (hserves : Serves i id w)
          (hm : Follows i id w m) : Follows i id w (m >>= poll n) :=
        .bind hm.1 (ih hm.2 (hm.1.serves hserves))
      cases hcourse with
      | submitted b h =>
          rw [poll]
          exact hnext hserves (follows_task hserves h b)
      | waiting t b h =>
          have hasked := follows_asked (·.retry id t) hserves (.retry id t) rfl h rfl
            (Pool.places_retry h t) t b
          have hpolled := hnext hserves hasked
          have hcheck : (check (.permit id t b)).run w =
              (Polled.of ((onPool (·.retry id t) >>= admitted id t b).run w).1,
                ((onPool (·.retry id t) >>= admitted id t b).run w).2) := rfl
          rw [Follows, run_bind] at hpolled
          rw [Follows, poll_wait, hcheck]
          rw [Follows] at hasked
          generalize (onPool (·.retry id t) >>= admitted id t b).run w = result at hasked hpolled
          obtain ⟨f, w'⟩ := result
          cases f with
          | wait next => exact hasked
          | _ => exact hpolled
      | running body deadline hbody h =>
          obtain ⟨hgoes, hjobless⟩ := jobless_poll n hbody w
          have hruns := isIn_goes h hgoes
          rw [poll]
          refine .bind (proceeds_own hgoes) ?_
          cases hbody' : ((poll n body).run w).1 with
          | done o => exact hnext (hgoes.serves hserves) (follows_bodyEnd hruns deadline o)
          | _ => exact ⟨proceeds_own (.refl _), .running _ deadline (hbody' ▸ hjobless) hruns⟩
      | ending taken ending htaken h =>
          obtain ⟨hgoes, hjobless⟩ := jobless_poll n htaken w
          have hruns := isIn_goes h hgoes
          rw [poll]
          refine .bind (proceeds_own hgoes) ?_
          cases htaken' : ((poll n taken).run w).1 with
          | done o => exact hnext (hgoes.serves hserves) (follows_andThen hruns ending o)
          | _ => exact ⟨proceeds_own (.refl _), .ending _ ending (htaken' ▸ hjobless) hruns⟩
      | finishing ending h =>
          rw [poll]
          exact hnext hserves (follows_finish hserves h ending)
      | ended outcome =>
          rw [Follows, poll_done]
          exact ⟨proceeds_own (.refl w), .ended _⟩

end Sim

end EventHub.Simulation
