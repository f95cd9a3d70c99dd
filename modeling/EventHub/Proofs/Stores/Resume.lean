import EventHub.Proofs.Stores.Steps
import EventHub.Simulation.Resume

/-!
How computations begin and go on, as far as the stores are concerned. What is no part
of a job's course begins nothing that is, and nothing that is goes on with its result.
-/

namespace EventHub.Simulation.Sim

open EventHub.Script

variable {i : Option Nat} {a b : Shape}

theorem isJobless_stepsFrom (context : Context) (sink : Sink) (done : List Script.Result)
    (steps : List Step) : (stepsFrom context sink done steps).isJobless = true := by
  cases steps <;> rfl

theorem isJobless_setUpEnd (ending : Ending) : (setUpEnd ending).isJobless = true := by
  cases ending <;> rfl

theorem isJobless_listenerEnd (ending : Ending) : (listenerEnd ending).isJobless = true := by
  cases ending <;> rfl

theorem jobless_setUpFrom (broker : Nat) (handle : Handle) (name : String) (ending : Ending)
    (steps : List Step) : Jobless i (setUpFrom broker handle name ending steps) := by
  rw [setUpFrom.eq_def]
  split
  · exact .pure (isJobless_setUpEnd _)
  · exact .bind (does_listenerOf _) fun listener => .pure rfl
  · exact .pure rfl

theorem jobless_listenAll (broker : Nat) (handle : Handle) (last : Option Record)
    (listeners : List (Listener Action)) : Jobless i (listenAll broker handle last listeners) := by
  cases listeners with
  | nil => exact .bind (does_writeAll _) fun _ => .pure rfl
  | cons listener rest => exact .pure rfl

theorem jobless_setUp (broker : Nat) (handle : Handle) (service : Service) :
    Jobless i (setUp broker handle service) := by
  cases service with
  | scripted name body ending leak =>
      refine .bind ?_ fun _ => jobless_setUpFrom _ _ _ _ _
      exact .modify (fun _ => rfl) fun _ => rfl
  | abrupt name payload => exact .pure rfl
  | eventLog => exact jobless_listenAll _ _ _ _
  | mapper => exact jobless_listenAll _ _ _ _
  | workspace index => exact jobless_listenAll _ _ _ _

/-- A workspace is closed while it is locked. -/
theorem does_close (index : Nat) :
    Does i (workspace index >>= fun state => setWorkspace index state.close) := by
  intro w
  rw [run_bind, (workspace_run index w).1]
  refine proceeds_setWorkspace .close fun h hfound => ?_
  rw [(workspace_run index w).2 h hfound]
  rfl

theorem jobless_react (action : Action) (e : Event) : Jobless i (react action e) := by
  cases action with
  | mapFile =>
      obtain ⟨seq, notice⟩ := e
      cases notice with
      | added file content =>
          refine .bind (does_scheduleMappings _ _) fun scheduled => ?_
          split <;> exact .pure rfl
      | _ => exact .pure rfl
  | closeWorkspace index =>
      intro w
      have hclosed := does_close (i := i) index w
      exact ⟨hclosed.trans (does_write _ _), rfl⟩
  | scripted slot spec => exact .pure rfl
  | logEvent => exact .pure rfl

theorem jobless_listener (action : Action) (e : Event) : Jobless i (listener action e) := by
  cases action with
  | logEvent => exact .bind (does_write _) fun _ => .pure rfl
  | mapFile => exact jobless_taking 1 rfl
  | closeWorkspace index => exact jobless_taking 1 rfl
  | scripted slot spec =>
      refine .bind (does_see _) fun _ => .bind (does_countCall _ _) fun counts => ?_
      cases counts
      · exact .pure rfl
      · rw [if_pos rfl]
        split <;> exact .pure rfl

theorem jobless_body (job : JobId) (b : JobBody) : Jobless i (body job b) := by
  cases b with
  | blocking work =>
      exact .bind (does_spawnBlocking _ _) fun task => .bind does_ticket fun t => .pure rfl
  | scripted spec =>
      simp only [body]
      split
      · exact .pure rfl
      · exact .bind (does_deed _ _) fun _ => .pure rfl

theorem jobless_callPlugin (who : String) (p : Plugin) (content : Bytes)
    {rest : Ending → Frame .results .job} (hrest : ∀ ending, (rest ending).isJobless = true) :
    Jobless i (callPlugin who p content rest) := by
  refine .bind (does_deed _ _) fun _ => .bind (does_countCall _ _) fun counts => ?_
  cases counts
  · exact .pure (Future.isJobless_bind.mpr ⟨rfl, hrest _⟩)
  · exact .pure (Future.isJobless_bind.mpr ⟨rfl, hrest _⟩)

theorem jobless_work (job : JobId) (work : Work) : Jobless i (Sim.work job work) := by
  cases work with
  | script spec => exact .bind (does_deed _ _) fun _ => .pure rfl
  | importClass parser file content =>
      refine .bind .get fun w => ?_
      split
      · exact .pure rfl
      · exact jobless_callPlugin _ _ _ fun _ => rfl
  | mapFile factory plugin file content => exact jobless_callPlugin _ _ _ fun _ => rfl
  | render call renderer viewType file content => exact jobless_callPlugin _ _ _ fun _ => rfl

theorem jobless_goOnView (call : Nat) (c : Generation.Call Renderer) :
    Jobless i (goOnView call c) := by
  rw [goOnView]
  split
  · exact jobless_taking 1 rfl
  · exact .bind (does_submit _ _) fun job => .bind does_ticket fun t => .pure rfl
  · exact jobless_taking 2 rfl
  · exact .pure rfl

/-- What a turn of a call for a view comes to is put in its place at once. -/
theorem jobless_turnView (call : Nat) (job : JobResult) : Jobless i (turnView call job) := by
  intro w
  let state : Workspace := ((workspace 0).run w).1
  let c : Generation.Call Renderer := w.viewCalls[call]?.getD default
  let next : Workspace × Generation.Call Renderer := c.turn state w.views job w.nextStamp
  let records : List Record := c.turnRecords state w.views w.nextStamp
  let written : World := ((writeAll records).run (stamp.run w).2).2
  have hwritten : Proceeds Pool.Move.IsOpen i w written :=
    (does_stamp w).trans (does_writeAll records _)
  let noted : World := { written with viewCalls := w.viewCalls.set! call next.2 }
  let turned : World := ((setWorkspace 0 next.1).run noted).2
  have hplaced : turned.stores = written.stores.turnView call state job w.nextStamp ∧
      turned.tasks = written.tasks := by
    simp only [turned, setWorkspace, run_modify, Stores.turnView]
    rw [show noted.workspaces[0]? = w.workspaces[0]? from rfl,
      show written.stores.workspaces[0]? = w.workspaces[0]? from rfl]
    cases w.workspaces[0]? <;> exact ⟨rfl, rfl⟩
  have hstate (h : Hosted) (hfound : written.stores.workspaces[0]? = some h) :
      h.workspace = state :=
    ((workspace_run 0 w).2 h hfound).symm
  have hturned : Proceeds Pool.Move.IsOpen i written turned := by
    refine .act ?_ hplaced.2 (congrArg (·.pool.jobs) hplaced.1)
    rw [hplaced.1]
    exact .turnView call state hstate job w.nextStamp
  obtain ⟨hgoes, hjobless⟩ := jobless_goOnView (i := i) call next.2 turned
  have hrun : (turnView call job).run w = (goOnView call next.2).run turned := by
    rw [turnView, run_bind, (workspace_run 0 w).1]
    rfl
  rw [YieldsAt, hrun]
  exact ⟨(hwritten.trans hturned).trans hgoes, hjobless⟩

theorem jobless_startNext (next : Startup.Next Service) : Jobless i (startNext next) := by
  cases next with
  | register service rest => exact .pure rfl
  | announce s => exact .bind (does_event _) fun e => .pure rfl
  | failed e => exact .pure rfl

theorem jobless_startStop (reason : ShutdownReason) : Jobless i (startStop reason) := by
  refine .bind (does_write _) fun _ => .bind does_requestShutdown fun _ => ?_
  exact .bind (does_event _) fun e => .pure rfl

theorem jobless_posting (broker : Nat) (t : Ticket) (id : ServiceId) :
    Jobless i (posting broker t id) := by
  refine .bind (does_onBroker _ _) fun posted => ?_
  cases posted <;> exact .pure rfl

theorem jobless_jobEnd (token : Option JobId) (ending : Ending) :
    Jobless i (jobEnd token ending) := by
  cases ending with
  | ifCanceled =>
      refine .bind .get fun w => ?_
      dsimp only
      split <;> exact .pure rfl
  | _ => exact .pure rfl

/-- What is no part of a job's course begins nothing that is. -/
theorem jobless_begin {b : Begin a} (hb : b.isJobless = true) : Jobless i (Sim.begin b) := by
  cases b with
  | step context s =>
      rw [Sim.begin]
      exact jobless_step context s
  | perform context s =>
      rw [Sim.begin]
      exact jobless_perform context s
  | steps context sink steps =>
      rw [Sim.begin]
      exact .pure (isJobless_stepsFrom _ _ _ _)
  | register broker service =>
      rw [Sim.begin]
      exact .bind does_ticket fun t => jobless_registering _ _ _ _
  | setUp broker handle service =>
      rw [Sim.begin]
      exact jobless_setUp _ _ _
  | subscribe broker handle listener =>
      rw [Sim.begin]
      exact .bind does_ticket fun t => jobless_subscribing _ _
  | fire broker event =>
      rw [Sim.begin]
      exact .bind does_ticket fun t => jobless_dispatching _ _
  | listener action event =>
      rw [Sim.begin]
      exact jobless_listener _ _
  | react action event =>
      rw [Sim.begin]
      exact jobless_react _ _
  | registry broker =>
      rw [Sim.begin]
      exact .pure rfl
  | discard broker service =>
      rw [Sim.begin]
      exact .bind does_ticket fun t => .pure rfl
  | sleep ms =>
      rw [Sim.begin]
      exact .bind (does_alarmAfter _) fun alarm => .pure rfl
  | wake wake =>
      rw [Sim.begin]
      exact .pure rfl
  | task job body => cases hb
  | body job body =>
      rw [Sim.begin]
      exact jobless_body _ _
  | work job work =>
      rw [Sim.begin]
      exact jobless_work _ _
  | finishJob job ending => cases hb
  | shutdownPool grace =>
      rw [Sim.begin]
      exact .bind (does_updatePool .close rfl nofun fun _ => rfl) fun _ => jobless_taking 1 rfl
  | drain grace =>
      rw [Sim.begin]
      refine .bind (does_updatePool (.noteDrain grace) rfl nofun fun _ => rfl) fun _ => ?_
      exact .bind (does_alarmAfter _) fun alarm => .bind does_ticket fun t => .pure rfl
  | graceOver grace =>
      rw [Sim.begin]
      exact .bind (does_onPool (.exceed grace) rfl nofun fun _ => rfl) fun e => .pure rfl
  | view file viewType =>
      rw [Sim.begin]
      exact .bind (does_newViewCall _ _) fun call => jobless_goOnView _ _
  | turnView call =>
      rw [Sim.begin]
      exact jobless_turnView _ _
  | start services =>
      rw [Sim.begin]
      exact .bind .get fun w => jobless_startNext _
  | stop reason =>
      rw [Sim.begin]
      exact jobless_startStop _
  | interruption =>
      rw [Sim.begin]
      refine .bind does_ticket fun t => .get fun w => ?_
      split
      · exact ⟨.refl w, rfl⟩
      · exact .set (.beside rfl rfl) (.pure rfl)

theorem does_dropFrame (frame : Frame a b) : Does i (dropFrame frame) := by
  cases frame with
  | settingUp broker t handle service =>
      exact .bind (does_onBroker _ _) fun orphan => does_discardLater _ _
  | _ => exact .pure ()

theorem jobless_setUpEnded (broker : Nat) (t : Ticket) (handle : Handle) (service : Service)
    (outcome : Outcome (Except ServiceError Unit)) :
    Jobless i (setUpEnded broker t handle service outcome) := by
  rw [setUpEnded]
  split
  · exact .bind (does_dropFrame _) fun _ => .pure rfl
  · exact jobless_registering _ _ _ _

theorem does_importClass (ws : Nat) (entry : Entry) (content : Bytes) :
    Does i (importClass ws entry content) := by
  refine .bind .get fun w => ?_
  split
  · exact does_write _
  · exact .bind (does_write _) fun _ => .bind (does_submit _ _) fun _ => .pure _

theorem does_present (sink : Sink) (r : Script.Result) : Does i (present sink r) := by
  cases sink with
  | nowhere => exact .pure ()
  | listener tag => exact does_see _
  | background who => exact does_deed _ _

theorem jobless_resume_panicked {frame : Frame a b} (hframe : frame.isJobless = true)
    (payload : Payload) : Jobless i (resume frame (.panicked payload)) := by
  have hdrop : Jobless i (dropFrame frame >>= fun _ => pure (Future.panic payload : Future b)) :=
    .bind (does_dropFrame frame) fun _ => .pure rfl
  cases frame with
  | guarded =>
      rw [resume]
      exact jobless_answer _
  | settingUp broker t handle service =>
      rw [resume]
      exact jobless_setUpEnded _ _ _ _ _
  | delivered broker d s deadline =>
      rw [resume]
      exact jobless_dispatching _ _
  | bodyEnd => cases hframe
  | _ =>
      rw [resume]
      · exact hdrop
      all_goals
        intros
        rename_i hb ha hf _
        cases hb <;> cases ha <;> cases hf

/-- What is no part of a job's course goes on to nothing that is. -/
theorem jobless_resume_returned {frame : Frame a b} (hframe : frame.isJobless = true)
    (v : a.Value) : Jobless i (resume frame (.returned v)) := by
  cases frame with
  | andThen next =>
      rw [resume]
      exact .pure hframe
  | map f =>
      rw [resume]
      exact .pure rfl
  | guarded =>
      rw [resume]
      exact jobless_answer _
  | keepHandle label =>
      cases v with
      | error e =>
          rw [resume]
          · exact .pure rfl
          · exact fun _ h => by cases h
      | ok handle =>
          rw [resume]
          exact .bind (.modify (fun _ => rfl) fun _ => rfl) fun _ => .pure rfl
  | keepView label =>
      cases v with
      | error e =>
          rw [resume]
          · exact .pure rfl
          · exact fun _ h => by cases h
      | ok view =>
          rw [resume]
          exact .bind (does_keepViewLabel _ _) fun _ => .pure rfl
  | nextStep context sink rest done =>
      rw [resume]
      exact .bind (does_present _ _) fun _ => .pure (isJobless_stepsFrom _ _ _ _)
  | settingUp broker t handle service =>
      rw [resume]
      exact jobless_setUpEnded _ _ _ _ _
  | nextSetUp broker handle name rest ending =>
      rw [resume]
      exact .bind (does_see _) fun _ => jobless_setUpFrom _ _ _ _ _
  | ownListen broker handle name rest ending =>
      cases v with
      | error e =>
          rw [resume]
          exact .pure rfl
      | ok v =>
          rw [resume]
          exact jobless_setUpFrom _ _ _ _ _
  | nextListen broker handle rest last =>
      cases v with
      | error e =>
          rw [resume]
          exact .pure rfl
      | ok v =>
          rw [resume]
          exact jobless_listenAll _ _ _ _
  | delivered broker d s deadline =>
      cases v with
      | none =>
          rw [resume]
          exact jobless_dispatching _ _
      | some result =>
          rw [resume]
          exact jobless_dispatching _ _
  | listenerEnd ending =>
      rw [resume]
      exact .pure (isJobless_listenerEnd _)
  | bodyEnd => cases hframe
  | scriptEnd job who ending =>
      rw [resume]
      exact .bind (does_deed _ _) fun _ => jobless_jobEnd _ _
  | importEnd magic content ending =>
      rw [resume]
      split
      · exact jobless_jobEnd _ _
      · exact .pure rfl
  | mapEnd job ending =>
      rw [resume]
      exact jobless_jobEnd _ _
  | renderEnd call ending =>
      cases ending with
      | panic payload atOnce =>
          rw [resume]
          exact .pure rfl
      | fail reason =>
          rw [resume]
          exact .pure rfl
      | _ =>
          rw [resume]
          · exact .bind (does_handOverView _) fun _ => .pure rfl
          all_goals
            intros
            simp_all
  | drainEnd grace =>
      cases v with
      | none =>
          rw [resume]
          exact jobless_taking 1 rfl
      | some v =>
          rw [resume]
          exact .bind (does_updatePool .noteDrained rfl nofun fun _ => rfl) fun _ => .pure rfl
  | classAdded ws content =>
      cases v with
      | error e =>
          rw [resume]
          · exact .pure rfl
          · exact fun _ h => by cases h
      | ok entry =>
          rw [resume]
          exact .bind (does_importClass _ _ _) fun _ => .pure rfl
  | collect call =>
      rw [resume]
      exact jobless_turnView _ _
  | decided s =>
      rw [resume]
      exact .bind (does_writeAll _) fun _ => jobless_startNext _
  | announced s =>
      cases v with
      | error e =>
          rw [resume]
          exact .pure rfl
      | ok report =>
          rw [resume]
          exact .bind (does_write _) fun _ => .pure rfl
  | stopAnnounced =>
      rw [resume]
      exact .bind .get fun w => .pure rfl
  | stopDrained announced =>
      rw [resume]
      exact .bind (does_onBroker _ _) fun _ => .pure rfl
  | runStarted =>
      cases v with
      | error e =>
          rw [resume]
          exact .pure rfl
      | ok v =>
          rw [resume]
          exact .pure rfl
  | interrupted =>
      rw [resume]
      exact jobless_startStop _
  | woken wake =>
      rw [resume]
      split
      · exact .bind (does_raise _) fun _ => .pure rfl
      · exact .bind does_requestShutdown fun _ => .pure rfl

theorem jobless_resume {frame : Frame a b} (hframe : frame.isJobless = true)
    (outcome : Outcome a.Value) : Jobless i (resume frame outcome) := by
  cases outcome with
  | returned v => exact jobless_resume_returned hframe v
  | panicked payload => exact jobless_resume_panicked hframe payload

end EventHub.Simulation.Sim
