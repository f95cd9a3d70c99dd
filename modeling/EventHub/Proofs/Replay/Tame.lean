import EventHub.Proofs.Replay.Steps
import EventHub.Simulation.Resume

/-!
What else begins or goes on without asking a broker: the code of services, listeners,
jobs and plugins, and the order in which the application starts and stops.
-/

namespace EventHub.Simulation.Sim

open EventHub.Script

variable {k : Nat}

theorem plain_stepsFrom (context : Context) (sink : Sink) (done : List Script.Result)
    (steps : List Step) : (stepsFrom context sink done steps).Plain k := by
  cases steps with
  | nil => exact fun _ => rfl
  | cons s rest =>
      refine .bind (.begin rfl) ?_
      exact fun _ => rfl

theorem plain_setUpEnd (ending : Ending) : (setUpEnd ending).Plain k := by
  cases ending <;> exact fun _ => rfl

theorem tame_setUpFrom (broker : Nat) (handle : Handle) (name : String) (ending : Ending)
    (steps : List Step) : Tame k (setUpFrom broker handle name ending steps) := by
  rw [setUpFrom.eq_def]
  split
  · exact .pure (plain_setUpEnd _)
  · refine .bind (calms_listenerOf _) fun listener => .pure (.bind (.begin rfl) ?_)
    exact fun _ => rfl
  · refine .pure (.bind (.begin rfl) ?_)
    exact fun _ => rfl

theorem tame_listenAll (broker : Nat) (handle : Handle) (last : Option Record)
    (listeners : List (Listener Action)) : Tame k (listenAll broker handle last listeners) := by
  cases listeners with
  | nil => exact .bind (calms_writeAll _) fun _ => .pure (.value _)
  | cons listener rest =>
      refine .pure (.bind (.begin rfl) ?_)
      exact fun _ => rfl

theorem tame_setUp (broker : Nat) (handle : Handle) (service : Service) :
    Tame k (setUp broker handle service) := by
  cases service with
  | scripted name body ending leak =>
      refine .bind ?_ fun _ => tame_setUpFrom _ _ _ _ _
      exact .modify (fun _ => rfl) (fun _ => rfl) (fun _ => rfl) fun _ => rfl
  | abrupt name payload => exact .pure (.panic _)
  | eventLog => exact tame_listenAll _ _ _ _
  | mapper => exact tame_listenAll _ _ _ _
  | workspace index => exact tame_listenAll _ _ _ _

theorem tame_react (action : Action) (e : Event) : Tame k (react action e) := by
  rw [react.eq_def]
  split
  · refine .bind (calms_scheduleMappings _ _) fun scheduled => ?_
    split
    · exact .pure (.panic _)
    · exact .pure (.value _)
  · refine .bind (calms_workspace _) fun state => .bind (calms_setWorkspace _ _) fun _ => ?_
    exact .bind (calms_write _) fun _ => .pure (.value _)
  · exact .pure (.value _)

theorem tame_listener (action : Action) (e : Event) : Tame k (listener action e) := by
  cases action with
  | logEvent => exact .bind (calms_write _) fun _ => .pure (.value _)
  | mapFile => exact tame_taking 1 rfl
  | closeWorkspace index => exact tame_taking 1 rfl
  | scripted slot spec =>
      refine .bind (calms_see _) fun _ => .bind (calms_countCall _ _) fun counts => ?_
      cases counts
      · exact .pure (.value _)
      · rw [if_pos rfl]
        split
        · exact .pure (.panic _)
        · refine .pure (.bind (.begin rfl) ?_)
          exact fun _ => rfl

theorem plain_within {a : Shape} (alarm : Alarm) {inner : Future a} (h : inner.Plain k) :
    (Future.within alarm inner).Plain k := h

theorem tame_runBody (job : JobId) (body : JobBody) : Tame k (runBody job body) := by
  refine .bind .get fun w => ?_
  split
  · refine .pure (.bind (.map (.begin rfl) _) ?_)
    exact fun _ => rfl
  · refine .bind (calms_alarmAfter _) fun alarm => .pure (.bind ?_ ?_)
    · exact plain_within alarm (.begin rfl)
    · exact fun _ => rfl

theorem tame_admitted (job : JobId) (ticket : Ticket) (body : JobBody)
    (admission : Pool.Admission) : Tame k (admitted job ticket body admission) := by
  cases admission with
  | run => exact .bind .get fun w => .bind (calms_spend _) fun _ => tame_runBody _ _
  | wait =>
      refine .pure ?_
      exact fun _ => rfl
  | canceled => exact .pure (.value _)

theorem tame_body (job : JobId) (b : JobBody) : Tame k (body job b) := by
  cases b with
  | blocking work =>
      refine .bind (calms_spawnBlocking _ _) fun task => .bind calms_ticket fun t => .pure ?_
      exact fun _ => rfl
  | scripted spec =>
      simp only [body]
      split
      · exact .pure (.panic _)
      · refine .bind (calms_deed _ _) fun _ => .pure (.bind (.begin rfl) ?_)
        exact fun _ => rfl

theorem tame_callPlugin (who : String) (p : Plugin) (content : Bytes)
    {rest : Ending → Frame .results .job} (hrest : ∀ ending x, (rest ending).Holds k x []) :
    Tame k (callPlugin who p content rest) := by
  refine .bind (calms_deed _ _) fun _ => .bind (calms_countCall _ _) fun counts => ?_
  cases counts
  · exact .pure (.bind (.value _) (hrest _))
  · exact .pure (.bind (.begin rfl) (hrest _))

theorem tame_work (job : JobId) (w : Work) : Tame k (work job w) := by
  cases w with
  | script spec =>
      refine .bind (calms_deed _ _) fun _ => .pure (.bind (.begin rfl) ?_)
      exact fun _ => rfl
  | importClass parser file content =>
      refine .bind .get fun w => ?_
      split
      · exact .pure (.value _)
      · exact tame_callPlugin _ _ _ fun _ _ => rfl
  | mapFile factory plugin file content => exact tame_callPlugin _ _ _ fun _ _ => rfl
  | render call renderer viewType file content => exact tame_callPlugin _ _ _ fun _ _ => rfl

theorem tame_goOnView (call : Nat) (c : Generation.Call Renderer) : Tame k (goOnView call c) := by
  rw [goOnView]
  split
  · exact tame_taking 1 rfl
  · refine .bind (calms_submit _ _) fun job => .bind calms_ticket fun t => .pure (.bind ?_ ?_)
    · exact fun _ => rfl
    · exact fun _ => rfl
  · exact tame_taking 2 rfl
  · exact .pure fun _ => rfl

theorem tame_turnView (call : Nat) (job : JobResult) : Tame k (turnView call job) := by
  refine .bind (calms_workspace 0) fun state => .bind calms_stamp fun now => .bind .get fun w => ?_
  refine .bind (calms_writeAll _) fun _ => .bind ?_ fun _ => ?_
  · exact .modify (fun _ => rfl) (fun _ => rfl) (fun _ => rfl) fun _ => rfl
  · exact .bind (calms_setWorkspace _ _) fun _ => tame_goOnView _ _

theorem tame_startNext (next : Startup.Next Service) : Tame k (startNext next) := by
  cases next with
  | register service rest =>
      refine .pure (.bind (.begin rfl) ?_)
      exact fun _ => rfl
  | announce s =>
      refine .bind (calms_event _) fun e => .pure (.bind (.begin rfl) ?_)
      exact fun _ => rfl
  | failed e => exact .pure (.value _)

theorem tame_startStop (reason : ShutdownReason) : Tame k (startStop reason) := by
  refine .bind (calms_write _) fun _ => .bind calms_requestShutdown fun _ => ?_
  refine .bind (calms_event _) fun e => .pure (.bind (.begin rfl) ?_)
  exact fun _ => rfl

theorem plain_listenerEnd (ending : Ending) : (listenerEnd ending).Plain k := by
  cases ending <;> exact fun _ => rfl

theorem tame_jobEnd (token : Option JobId) (ending : Ending) : Tame k (jobEnd token ending) := by
  cases ending with
  | ifCanceled =>
      refine .bind .get fun w => ?_
      dsimp only
      split <;> exact .pure (.value _)
  | panic payload atOnce => exact .pure (.panic _)
  | _ => exact .pure (.value _)

/-- Whether a computation asks a broker when it begins. -/
def Begins {a : Shape} : Begin a → Prop
  | .step _ s => AsksBroker s
  | .perform _ s => AsksBroker s
  | .register .. => True
  | .subscribe .. => True
  | .fire .. => True
  | .discard .. => True
  | _ => False

theorem tame_begin {a : Shape} {b : Begin a} (hb : ¬ Begins b) : Tame k (Sim.begin b) := by
  cases b with
  | step context s =>
      rw [Sim.begin]
      refine .bind (calms_writeAll _) fun _ => .bind (calms_needs _) fun things => ?_
      split
      · exact tame_perform context hb
      · exact tame_taking _ rfl
  | perform context s =>
      rw [Sim.begin]
      exact tame_perform context hb
  | steps context sink steps =>
      rw [Sim.begin]
      exact .pure (plain_stepsFrom _ _ _ _)
  | register broker service => exact absurd trivial hb
  | setUp broker handle service =>
      rw [Sim.begin]
      exact tame_setUp _ _ _
  | subscribe broker handle listener => exact absurd trivial hb
  | fire broker event => exact absurd trivial hb
  | listener action event =>
      rw [Sim.begin]
      exact tame_listener _ _
  | react action event =>
      rw [Sim.begin]
      exact tame_react _ _
  | registry broker =>
      rw [Sim.begin]
      exact .pure fun _ => rfl
  | discard broker service => exact absurd trivial hb
  | sleep ms =>
      rw [Sim.begin]
      exact .bind (calms_alarmAfter _) fun alarm => .pure fun _ => rfl
  | wake wake =>
      rw [Sim.begin]
      refine .pure (.bind (.begin rfl) ?_)
      exact fun _ => rfl
  | task job body =>
      rw [Sim.begin]
      exact .bind calms_ticket fun t => .bind (calms_onPool _) fun _ => tame_admitted _ _ _ _
  | body job body =>
      rw [Sim.begin]
      exact tame_body _ _
  | work job work =>
      rw [Sim.begin]
      exact tame_work _ _
  | finishJob job ending =>
      rw [Sim.begin]
      exact .bind (calms_updatePool _) fun _ => .pure (.value _)
  | shutdownPool grace =>
      rw [Sim.begin]
      exact .bind (calms_updatePool _) fun _ => tame_taking 1 rfl
  | drain grace =>
      rw [Sim.begin]
      refine .bind (calms_updatePool _) fun _ => .bind (calms_alarmAfter _) fun alarm => ?_
      refine .bind calms_ticket fun t => .pure (.bind ?_ ?_)
      · exact fun _ => rfl
      · exact fun _ => rfl
  | graceOver grace =>
      rw [Sim.begin]
      exact .bind (calms_onPool _) fun e => .pure (.value _)
  | view file viewType =>
      rw [Sim.begin]
      exact .bind (calms_newViewCall _ _) fun call => tame_goOnView _ _
  | turnView call =>
      rw [Sim.begin]
      exact tame_turnView _ _
  | start services =>
      rw [Sim.begin]
      exact .bind .get fun w => tame_startNext _
  | stop reason =>
      rw [Sim.begin]
      exact tame_startStop _
  | interruption =>
      rw [Sim.begin]
      refine .bind calms_ticket fun t => .get fun w => ?_
      split
      · refine Tame.pure ?_ w
        exact fun _ => rfl
      · refine .set (.of_eq rfl (Nat.le_refl _) rfl rfl) ?_
        exact .pure fun _ => rfl

/-- Whether something at a broker goes on with a result. -/
def Continues {a b : Shape} : Frame a b → Prop
  | .settingUp .. => True
  | .delivered .. => True
  | .stopDrained _ => True
  | _ => False

theorem calms_dropFrame {a b : Shape} {frame : Frame a b} (hframe : ¬ Continues frame) :
    Calms k (dropFrame frame) := by
  cases frame with
  | settingUp => exact absurd trivial hframe
  | _ => exact .pure ()

theorem tame_resume_panicked {a b : Shape} {frame : Frame a b} (hframe : ¬ Continues frame)
    (payload : Payload) : Tame k (resume frame (.panicked payload)) := by
  have hdrop : Tame k (dropFrame frame >>= fun _ => pure (Future.panic payload : Future b)) :=
    .bind (calms_dropFrame hframe) fun _ => .pure (.panic _)
  cases frame with
  | guarded =>
      rw [resume]
      exact tame_answer _
  | settingUp => exact absurd trivial hframe
  | delivered => exact absurd trivial hframe
  | bodyEnd job deadline =>
      rw [resume]
      exact tame_taking 1 rfl
  | stopDrained => exact absurd trivial hframe
  | _ =>
      rw [resume]
      · exact hdrop
      all_goals
        intros
        rename_i hb ha hf _
        cases hb <;> cases ha <;> cases hf

theorem tame_resume {a b : Shape} {frame : Frame a b} (hframe : ¬ Continues frame)
    (hholds : ∀ x, frame.Holds k x []) (v : a.Value) :
    Tame k (resume frame (.returned v)) := by
  cases frame with
  | andThen next =>
      rw [resume]
      obtain ⟨hnext, -⟩ := hholds { broker := noBroker }
      exact .pure fun x => ⟨hnext, rfl⟩
  | map f =>
      rw [resume]
      exact .pure (.value _)
  | guarded =>
      rw [resume]
      exact tame_answer _
  | keepHandle label =>
      cases v with
      | error e =>
          rw [resume]
          · exact .pure (.value _)
          · exact fun _ h => by cases h
      | ok handle =>
          rw [resume]
          refine .bind ?_ fun _ => .pure (.value _)
          exact .modify (fun _ => rfl) (fun _ => rfl) (fun _ => rfl) fun _ => rfl
  | keepView label =>
      cases v with
      | error e =>
          rw [resume]
          · exact .pure (.value _)
          · exact fun _ h => by cases h
      | ok view =>
          rw [resume]
          exact .bind (calms_keepViewLabel _ _) fun _ => .pure (.value _)
  | nextStep context sink rest done =>
      rw [resume]
      exact .bind (calms_present _ _) fun _ => .pure (plain_stepsFrom _ _ _ _)
  | settingUp => exact absurd trivial hframe
  | nextSetUp broker handle name rest ending =>
      rw [resume]
      exact .bind (calms_see _) fun _ => tame_setUpFrom _ _ _ _ _
  | ownListen broker handle name rest ending =>
      cases v with
      | error e =>
          rw [resume]
          exact .pure (.value _)
      | ok v =>
          rw [resume]
          exact tame_setUpFrom _ _ _ _ _
  | nextListen broker handle rest last =>
      cases v with
      | error e =>
          rw [resume]
          exact .pure (.value _)
      | ok v =>
          rw [resume]
          exact tame_listenAll _ _ _ _
  | delivered => exact absurd trivial hframe
  | listenerEnd ending =>
      rw [resume]
      exact .pure (plain_listenerEnd _)
  | bodyEnd job deadline =>
      cases v with
      | none =>
          rw [resume]
          exact tame_taking 1 rfl
      | some result =>
          rw [resume]
          exact tame_taking 1 rfl
  | scriptEnd job who ending =>
      rw [resume]
      exact .bind (calms_deed _ _) fun _ => tame_jobEnd _ _
  | importEnd magic content ending =>
      rw [resume]
      split
      · exact tame_jobEnd _ _
      · exact .pure (.value _)
  | mapEnd job ending =>
      rw [resume]
      exact tame_jobEnd _ _
  | renderEnd call ending =>
      cases ending with
      | panic payload atOnce =>
          rw [resume]
          exact .pure (.panic _)
      | fail reason =>
          rw [resume]
          exact .pure (.value _)
      | _ =>
          rw [resume]
          · exact .bind (calms_handOverView _) fun _ => .pure (.value _)
          all_goals
            intros
            simp_all
  | drainEnd grace =>
      cases v with
      | none =>
          rw [resume]
          exact tame_taking 1 rfl
      | some v =>
          rw [resume]
          exact .bind (calms_updatePool _) fun _ => .pure (.value _)
  | classAdded ws content =>
      cases v with
      | error e =>
          rw [resume]
          · exact .pure (.value _)
          · exact fun _ h => by cases h
      | ok entry =>
          rw [resume]
          exact .bind (calms_importClass _ _ _) fun _ => .pure (.value _)
  | collect call =>
      rw [resume]
      exact tame_turnView _ _
  | decided s =>
      rw [resume]
      exact .bind (calms_writeAll _) fun _ => tame_startNext _
  | announced s =>
      cases v with
      | error e =>
          rw [resume]
          exact .pure (.value _)
      | ok report =>
          rw [resume]
          exact .bind (calms_write _) fun _ => .pure (.value _)
  | stopAnnounced =>
      rw [resume]
      refine .bind .get fun w => .pure (.bind (.begin rfl) ?_)
      exact fun _ => rfl
  | stopDrained => exact absurd trivial hframe
  | runStarted =>
      cases v with
      | error e =>
          rw [resume]
          exact .pure (.value _)
      | ok list =>
          rw [resume]
          refine .pure (.bind (.begin rfl) ?_)
          exact fun _ => rfl
  | interrupted =>
      rw [resume]
      exact tame_startStop _
  | woken w =>
      rw [resume]
      split
      · exact .bind (calms_raise _) fun _ => .pure (.value _)
      · exact .bind calms_requestShutdown fun _ => .pure (.value _)

end EventHub.Simulation.Sim
