import EventHub.Proofs.Jobs.History
import EventHub.Proofs.Jobs.Stages

/-!
The life of a job. Its task is added when it is submitted, and whatever happens from then on, the
task stands where its own turns have brought it and the job has no result, or the task is over and
the job has the one result to which those turns have come.
-/

namespace EventHub

open EventHub.Script EventHub.Simulation

namespace Pool

variable {p : Pool} {id : JobId}

/-- A job whose task is taken away before its end is cancelled. -/
theorem result?_abort (h : p.isIn id (fun phase => phase.isEarly || phase.isRunning) = true) :
    (p.abort id).result? id = some (.error .canceled) := by
  have hknown := isSome_of_isIn h
  have haborted := p.aborted id
  generalize p.abort id = q at haborted
  cases haborted with
  | none hnot => cases hnot.symm.trans h
  | submitted _ => exact result?_conclude rfl hknown _
  | waiting _ =>
      exact result?_conclude ((SameJobs.leaveQueue p id).trans (.dropToken _ id)).jobs hknown _
  | running _ =>
      exact result?_conclude ((SameJobs.returnPermit p id).trans (.dropToken _ id)).jobs hknown _

end Pool

namespace Simulation

variable {limit : Option Duration} {i : Nat} {job : JobId} {body : JobBody} {w w' : World}
  {turns : List (World × World)} {cut : Bool} {f : Future .job} {t : Task}

/-- The job of a task that is not over has a phase in which it can be cut short. -/
theorem JobCourse.isIn {p : Pool} (h : JobCourse p job f) (hgoes : ∀ o, f ≠ .done o) :
    p.isIn job (fun phase => phase.isEarly || phase.isRunning) = true := by
  have hruns (h : p.isIn job (·.isRunning) = true) :
      p.isIn job (fun phase => phase.isEarly || phase.isRunning) = true :=
    Pool.isIn_mono h fun phase hphase => by simp [hphase]
  cases h with
  | submitted _ h => exact Pool.isIn_mono h fun phase hphase => by simp [JobPhase.isEarly, hphase]
  | waiting _ _ h => exact Pool.isIn_mono h fun phase hphase => by simp [JobPhase.isEarly, hphase]
  | running _ _ _ h => exact hruns h
  | ending _ _ _ h => exact hruns h
  | finishing _ h => exact hruns h
  | ended o => exact absurd rfl (hgoes o)

/-- The task of a job stands where the job does. -/
theorem InStep.jobCourse (h : InStep none w) (ht : w.tasks[i]? = some t)
    (hrunning : t.running = .job job f) : JobCourse w.pool job f := by
  have hstands := h.stands i t (by simp) ht
  rwa [hrunning] at hstands

/-- What has become of a job after these turns of its task, which was taken away or not. -/
inductive Life (limit : Option Duration) (i : Nat) (job : JobId) (body : JobBody)
    (turns : List (World × World)) : Bool → World → Prop
  | pending {f : Future .job} {w : World} (t : Task) (htask : w.tasks[i]? = some t)
      (hrunning : t.running = .job job f) (hstage : JobStage limit job body turns f)
      (hnone : w.pool.result? job = none) : Life limit i job body turns false w
  | settled {cut : Bool} {ending : Option Pool.BodyEnd} {w : World} (t : Task)
      (htask : w.tasks[i]? = some t) (hrunning : t.running = .finished)
      (hends : JobEnds limit job body turns cut ending) (htold : Pool.Told job ending w.pool) :
      Life limit i job body turns cut w

/-- What is so between two turns: every task stands where its job does, tokens were cancelled for
good reasons, and the pool gives bodies so much time. -/
structure Orderly (limit : Option Duration) (w : World) : Prop where
  inStep : InStep none w
  canceled : w.pool.WellCanceled
  deadline : w.pool.deadline = limit

theorem Orderly.chosen (h : Orderly limit w) (hchosen : Chosen w w') : Orderly limit w' := by
  have hpool : w'.pool = w.pool := congrArg Stores.pool hchosen.stores
  refine ⟨h.inStep.of_acts (.of_eq hchosen.stores) (.of_eq hchosen.tasks), ?_, ?_⟩
  · exact hpool ▸ h.canceled
  · exact hpool ▸ h.deadline

/-- A task that has a turn had not come to its end. -/
theorem Life.of_hasTurn (h : Life limit i job body turns cut w) {v : World}
    (hturn : HasTurn i t w v w') :
    cut = false ∧ ∃ f, t.running = .job job f ∧ JobStage limit job body turns f := by
  have htask : w.tasks[i]? = some t := hturn.chosen.tasks ▸ hturn.task
  cases h with
  | pending t' htask' hrunning hstage _ =>
      cases htask.symm.trans htask'
      exact ⟨rfl, _, hrunning, hstage⟩
  | settled t' htask' hrunning _ _ =>
      cases htask.symm.trans htask'
      exact absurd hrunning hturn.goes

/-- Whoever spares the task leaves the life of its job as it is. -/
theorem Life.spared (h : Life limit i job body turns cut w) (hspared : Spared i w w')
    (hpool : ∃ moves, w'.pool = w.pool.run moves) (horder : InStep none w') :
    Life limit i job body turns cut w' := by
  cases h with
  | pending t htask hrunning hstage hnone =>
      obtain ⟨t', htask', hsame⟩ := hspared.running t htask
      have hcourse := horder.jobCourse htask' (hsame.trans hrunning)
      exact .pending t' htask' (hsame.trans hrunning) hstage
        (Pool.result?_of_isIn (hcourse.isIn hstage.ne_done) fun _ => rfl)
  | settled t htask hrunning hends htold =>
      obtain ⟨t', htask', hsame⟩ := hspared.running t htask
      obtain ⟨moves, hmoves⟩ := hpool
      exact .settled t' htask' (hsame.trans hrunning) hends (hmoves ▸ htold.run moves)

/-- No other task has anything to do for the job. -/
theorem Life.alone (h : Life limit i job body turns cut w) (hin : InStep none w) {j : Nat}
    (ht : w.tasks[j]? = some t) (hrunning : t.running = .job job f)
    (hgoes : ∀ o, f ≠ .done o) : j = i := by
  have hjob : t.running.job? = some job := by
    rw [hrunning]
    rfl
  cases h with
  | pending t' ht' hrunning' _ _ =>
      refine hin.apart j i t t' job ht ht' hjob ?_
      rw [hrunning']
      rfl
  | settled _ _ _ _ htold =>
      have hcourse := hin.jobCourse ht hrunning
      have hnone := Pool.result?_of_isIn (hcourse.isIn hgoes) fun _ => rfl
      cases hnone.symm.trans htold.result

namespace Sim

/-- The task of a job is taken away. -/
theorem result?_cancel (hcourse : JobCourse w.pool job f) (hgoes : ∀ o, f ≠ .done o) :
    ((cancel i (.job job f)).run w).2.pool.result? job = some (.error .canceled) := by
  have hdropped : Proceeds Pool.Move.IsOpen none w ((drop f).run w).2 := does_drop f w
  have hstill := hcourse.kept fun j hj => hdropped.acts.job?_kept hj
  rw [cancel, run_bind, updatePool, pool_onPool]
  exact Pool.result?_abort (hstill.isIn hgoes)

theorem advance_job_over {o : Outcome JobResult} (h : (poll pollFuel f).run w = (.done o, w')) :
    (advance i (.job job f)).run w = (.finished, w') := by
  rw [advance, run_bind, h]
  rfl

theorem advance_job_goes {f' : Future .job} (h : (poll pollFuel f).run w = (f', w'))
    (hgoes : ∀ o, f' ≠ .done o) : (advance i (.job job f)).run w = (.job job f', w') := by
  rw [advance, run_bind, h]
  cases f' with
  | done o => exact absurd rfl (hgoes o)
  | _ => rfl

end Sim

/-- A task that was taken away before it came to its end. -/
theorem Life.of_cancel (hstage : JobStage limit job body turns f) {u v : World}
    (hcourse : JobCourse u.pool job f)
    (hwith : LeftWith i .finished ((Sim.cancel i (.job job f)).run u).2 v) :
    Life limit i job body turns true v := by
  obtain ⟨t, htask, hrunning⟩ := hwith.task
  refine .settled t htask hrunning (.takenAway hstage) (.of_canceled ?_)
  rw [hwith.pool]
  exact Sim.result?_cancel hcourse hstage.ne_done

/-- The task of a job that has gone on stands where the job does, which the pool still knows. -/
theorem Orderly.advanced (horder : Orderly limit w) (htask : w.tasks[i]? = some t)
    (hrunning : t.running = .job job f) {r : Running} {u : World}
    (hrun : (Sim.advance i t.running).run (w.entered i t) = (r, u)) :
    r.Stands u.pool ∧ (u.pool.job? job).isSome := by
  have hself : (w.entered i t).tasks[i]? = some { t with isQueued := false } :=
    getElem?_set_self htask _
  have hentered : InStep none (w.entered i t) :=
    horder.inStep.of_acts (.refl _) (.set_task htask rfl)
  have hadvanced := Sim.advanced (hentered.stands i _ (by simp) hself) fun id hid => ⟨_, hself, hid⟩
  rw [hrun] at hadvanced
  obtain ⟨t', ht', hsame⟩ := hadvanced.goes.kept i _ hself
  refine ⟨hadvanced.stands, (hadvanced.goes.inStep hentered.enter).known i t' job ht' ?_⟩
  rw [hsame, hrunning]
  rfl

/-- The turn of a task that was not aborted before. -/
theorem Life.advance (horder : Orderly limit w) (htask : w.tasks[i]? = some t)
    (hrunning : t.running = .job job f) (haborted : t.isAborted = false)
    (hstage : JobStage limit job body turns f) {r : Running} {u : World}
    (hrun : (Sim.advance i t.running).run (w.entered i t) = (r, u)) :
    Life limit i job body (turns ++ [(w.entered i t, u)]) (!r.isOver && u.isAborted i)
      ((Sim.runTask i).run w).2 := by
  obtain ⟨hstands, hknown⟩ := horder.advanced htask hrunning hrun
  have hheld : (w.entered i t).allowance = some Sim.turnAllowance := by
    rw [World.entered, hrunning]
  have hturn : JobTurned limit job body turns (w.entered i t)
      ((Sim.poll Sim.pollFuel f).run (w.entered i t)) :=
    hstage.turn (horder.inStep.jobCourse htask hrunning) horder.deadline horder.canceled hheld
  generalize hpolled : (Sim.poll Sim.pollFuel f).run (w.entered i t) = polled at hturn
  have hadvance := hrun
  rw [hrunning] at hadvance
  cases hturn with
  | @goes f' u' hstage' =>
      obtain ⟨rfl, rfl⟩ : .job job f' = r ∧ u' = u :=
        Prod.ext_iff.mp ((Sim.advance_job_goes hpolled hstage'.ne_done).symm.trans hadvance)
      have hcourse : JobCourse u'.pool job f' := hstands
      rcases Sim.runTask_advanced htask haborted hrun with
        ⟨hkept, hwith⟩ | ⟨hflagged, x, hwith, hover⟩
      · rw [hkept, Bool.and_false]
        obtain ⟨t', ht', hrunning'⟩ := hwith.task
        refine .pending t' ht' hrunning' hstage' ?_
        rw [hwith.pool]
        exact Pool.result?_of_isIn (hcourse.isIn hstage'.ne_done) fun _ => rfl
      · rw [hflagged]
        exact .of_cancel hstage' (hwith.pool ▸ hcourse) hover
  | @ends ending u' hend htold =>
      obtain ⟨rfl, rfl⟩ : .finished = r ∧ u' = u :=
        Prod.ext_iff.mp ((Sim.advance_job_over hpolled).symm.trans hadvance)
      have hwith := Sim.runTask_over htask haborted hrun
      obtain ⟨t', ht', hrunning'⟩ := hwith.task
      exact .settled t' ht' hrunning' hend (hwith.pool ▸ htold hknown)

end Simulation

namespace Scenario

variable {s : Scenario} {i : Nat} {job : JobId} {body : JobBody} {w w' : World}
  {turns : List (World × World)} {cut : Bool} {t : Simulation.Task}

/-- Every world that a scenario comes to is in order. -/
theorem Leads.orderly (h : Leads s.start w) : Orderly s.config.jobDeadline w := by
  obtain ⟨moves, hmoves⟩ := h.pool
  refine ⟨(h.turns setUp_start.inStep).inStep, ?_, ?_⟩
  · rw [hmoves]
    exact .run s.config moves
  · rw [hmoves, Pool.deadline_run]
    rfl

/-- From its submission on, a job has a life. -/
theorem LeadsIn.life (hreached : Leads s.start w) (htask : w.tasks[i]? = some t)
    (hrunning : t.running = .job job (.begin (.task job body))) (h : LeadsIn i w turns cut w') :
    Life s.config.jobDeadline i job body turns cut w' := by
  refine h.carries ?start ?spared ?aborted ?advanced
  case start =>
    have hwaited : Waited job body [] (.begin (.task job body)) :=
      ⟨.refl _, .begin, fun o h => by cases h⟩
    refine .pending t htask hrunning (.queued hwaited) ?_
    have hcourse := hreached.orderly.inStep.jobCourse htask hrunning
    exact Pool.result?_of_isIn (hcourse.isIn hwaited.goes) fun _ => rfl
  case spared =>
    intro turns cut v v' hleads hgoes hspared hlife
    have hreached' := hreached.trans hleads
    exact hlife.spared hspared (hreached'.pool_onward hgoes) (hreached'.trans hgoes).orderly.inStep
  case aborted =>
    intro turns cut t v x v' hleads hgoes hturn haborted hlife
    obtain ⟨rfl, f, hruns, hstage⟩ := hlife.of_hasTurn hturn
    have horder := (hreached.trans hleads).orderly.chosen hturn.chosen
    have hcourse := horder.inStep.jobCourse hturn.task hruns
    have hwith := Sim.runTask_aborted hturn.task haborted
    rw [hruns] at hwith
    rw [hturn.run]
    exact .of_cancel hstage (u := x.entered i t) hcourse hwith
  case advanced =>
    intro turns cut t v x v' r u hleads hgoes hturn haborted hadvance hlife
    obtain ⟨rfl, f, hruns, hstage⟩ := hlife.of_hasTurn hturn
    have horder := (hreached.trans hleads).orderly.chosen hturn.chosen
    rw [hturn.run, Bool.false_or]
    exact .advance horder hturn.task hruns haborted hstage hadvance

end Scenario

end EventHub
