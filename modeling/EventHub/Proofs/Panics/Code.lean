import EventHub.Proofs.Panics.Uneventful

/-!
What code leaves alone. Whatever a computation does when it begins, is looked at, goes on
or is given up, it says nothing of the end of blocking work, and no task comes to run
anything else by it. Both are for the schedule alone. The services that the application
starts by itself are told before it is built. And files are added or get new content by
three calls to a workspace only, which are left out here.
-/

namespace EventHub.Simulation

/-- The calls that add a file or give one new content. -/
def Begin.WritesFile {a : Shape} : Begin a → Prop
  | .perform _ (.workspace _ (.addFile ..)) => True
  | .perform _ (.workspace _ (.addClass ..)) => True
  | .perform _ (.workspace _ (.update ..)) => True
  | _ => False

namespace Sim

open EventHub.Script

variable {α β : Type} {a b : Shape}

/-- The code says nothing of the end of blocking work, of what is started by itself, nor of what
files hold. -/
def Leaves (m : Sim α) : Prop := ∀ w, Uneventful w (m.run w).2

namespace Leaves

@[grind ←]
theorem pure (v : α) : Leaves (Pure.pure v : Sim α) := Ensures.pure v

@[grind ←]
theorem bind {m : Sim α} {f : α → Sim β} (hm : Leaves m) (hf : ∀ v, Leaves (f v)) :
    Leaves (m >>= f) := Ensures.bind hm hf

@[grind ←]
theorem map {m : Sim α} (f : α → β) (hm : Leaves m) : Leaves (f <$> m) := hm

@[grind ←]
theorem get : Leaves (get : Sim World) := fun w => .refl w

/-- What is done may depend on the world that was looked at. -/
theorem getThen {f : World → Sim β} (hf : ∀ w, Uneventful w ((f w).run w).2) :
    Leaves ((MonadState.get : Sim World) >>= f) := fun w => hf w

theorem set {w w' : World} {m : Sim β} (h : Uneventful w w') (hm : Leaves m) :
    Uneventful w ((MonadState.set w' >>= fun _ => m).run w).2 := h.trans (hm w')

theorem modify {f : World → World} (hkept : ∀ w, (f w).kept = w.kept) : Leaves (modify f) :=
  fun w => .of_eq (hkept w)

@[grind ←]
theorem forM {f : α → Sim Unit} (hf : ∀ v, Leaves (f v)) (list : List α) :
    Leaves (list.forM f) := Ensures.forM hf list

@[grind ←]
theorem forIn {f : α → β → Sim (ForInStep β)} (hf : ∀ v b, Leaves (f v b)) (list : List α)
    (b : β) : Leaves (forIn list b f) := Ensures.forIn hf list b

@[grind ←]
theorem mapM {f : α → Sim β} (hf : ∀ v, Leaves (f v)) (list : List α) :
    Leaves (list.mapM f) := Ensures.mapM hf list

@[grind ←]
theorem optionForM {f : α → Sim Unit} (hf : ∀ v, Leaves (f v)) (o : Option α) :
    Leaves (o.forM f) := Ensures.optionForM hf o

@[grind ←]
theorem optionMapM {f : α → Sim β} (hf : ∀ v, Leaves (f v)) (o : Option α) :
    Leaves (o.mapM f) := Ensures.optionMapM hf o

end Leaves

/-! ### Acts on the world -/

@[grind ←]
theorem leaves_ticket : Leaves ticket := fun _ => .of_eq rfl

@[grind ←]
theorem leaves_wakeTask (id : Nat) : Leaves (wakeTask id) := by
  intro w
  simp only [wakeTask, run_modify]
  split
  · exact .refl w
  · rename_i t ht
    have hqueued : Uneventful w { w with tasks := w.tasks.set! id { t with isQueued := true } } :=
      .set_task ht rfl
    split
    · exact .refl w
    · exact hqueued
    · split
      · exact .of_eq rfl
      · split
        · exact .refl w
        · exact hqueued.trans (.of_eq rfl)

@[grind ←]
theorem leaves_wakeAll (ts : List Ticket) : Leaves (wakeAll ts) :=
  .forM (f := wake) (fun t => leaves_wakeTask t.task) ts

@[grind ←]
theorem leaves_defer : Leaves defer := by
  refine .getThen fun w => ?_
  simp only
  split
  · exact leaves_wakeTask _ w
  · split
    · exact .refl w
    · exact .of_eq rfl

@[grind ←]
theorem leaves_isSpent : Leaves isSpent := fun w => .refl w

@[grind ←]
theorem leaves_spend (things : Nat) : Leaves (spend things) := fun _ => .of_eq rfl

@[grind ←]
theorem leaves_spawn (r : Running) : Leaves (spawn r) := fun _ =>
  (Uneventful.push _).trans (.of_eq rfl)

@[grind ←]
theorem leaves_write (r : Record) : Leaves (write r) := fun _ => .of_eq rfl

@[grind ←]
theorem leaves_writeAll (rs : List Record) : Leaves (writeAll rs) := fun _ => .of_eq rfl

@[grind ←]
theorem leaves_see (s : Seen) : Leaves (see s) := fun _ => .of_eq rfl

@[grind ←]
theorem leaves_deed (who : String) (d : Deed) : Leaves (deed who d) := fun _ => .of_eq rfl

/-- Records are kept and those concerned are woken. -/
theorem leaves_outbox (records : List Record) (wakes : List Ticket) (v : α) :
    Leaves (writeAll records >>= fun _ => wakeAll wakes >>= fun _ => Pure.pure v) :=
  .bind (leaves_writeAll records) fun _ => .bind (leaves_wakeAll wakes) fun _ => .pure v

@[grind ←]
theorem leaves_onBroker (index : Nat) (act : Broker Action → Broker Action × α) :
    Leaves (onBroker index act) := by
  refine .getThen fun w => ?_
  split
  · exact .refl w
  · exact Leaves.set (.of_eq rfl) (leaves_outbox _ _ _)

@[grind ←]
theorem leaves_onPool (act : Pool → Pool × α) : Leaves (onPool act) :=
  .getThen fun _ => Leaves.set (.of_eq rfl) (leaves_outbox _ _ _)

@[grind ←]
theorem leaves_updatePool (act : Pool → Pool) : Leaves (updatePool act) := leaves_onPool _

theorem workspace_at (index : Nat) (w : World) :
    (workspace index).run w = (w.workspaceAt index, w) := by
  have hget : (get : Sim World).run w = (w, w) := rfl
  rw [workspace, run_bind, hget, World.workspaceAt]
  cases w.workspaces[index]? <;> rfl

@[grind ←]
theorem leaves_workspace (index : Nat) : Leaves (workspace index) := by
  intro w
  rw [workspace_at]
  exact .refl w

/-- What is done may depend on the workspace that was looked at. -/
theorem Leaves.workspaceThen {index : Nat} {f : Workspace → Sim β}
    (hf : ∀ w, Uneventful w ((f (w.workspaceAt index)).run w).2) :
    Leaves (workspace index >>= f) := by
  intro w
  rw [run_bind, workspace_at]
  exact hf w

theorem uneventful_setWorkspace {w : World} {index : Nat} {state : Workspace}
    (h : (w.workspaceAt index).Keeps state) :
    Uneventful w ((setWorkspace index state).run w).2 := by
  rw [setWorkspace, run_modify]
  split
  · exact .refl w
  · rename_i hosted hfound
    rw [World.workspaceAt_found hfound] at h
    exact .set_workspace hfound h

@[grind ←]
theorem leaves_event (notice : Notice) : Leaves (event notice) := fun _ =>
  .of_silent ⟨Nat.le_succ _, fun _ => .refl _⟩

@[grind ←]
theorem leaves_stamp : Leaves stamp := fun _ => .of_eq rfl

@[grind ←]
theorem leaves_slot : Leaves slot := fun _ => .of_eq rfl

@[grind ←]
theorem leaves_countCall (slot : Nat) (times : Option Nat) : Leaves (countCall slot times) :=
  fun _ => .of_eq rfl

@[grind ←]
theorem leaves_plugin (spec : PluginSpec Step) : Leaves (plugin spec) := fun _ => .of_eq rfl

@[grind ←]
theorem leaves_alarmAfter (d : Duration) : Leaves (alarmAfter d) := fun _ => .of_eq rfl

@[grind ←]
theorem leaves_isDue (alarm : Alarm) : Leaves (isDue alarm) := by
  refine .getThen fun w => ?_
  split
  · exact .refl w
  · split
    · exact .refl w
    · exact .of_eq rfl

@[grind ←]
theorem leaves_unset (alarm : Alarm) : Leaves (unset alarm) := fun _ => .of_eq rfl

@[grind ←]
theorem leaves_submit (name : String) (body : JobBody) : Leaves (submit name body) :=
  .bind (leaves_onPool _) fun id => .bind (leaves_spawn _) fun _ => .pure id

@[grind ←]
theorem leaves_newBroker (config : Config) : Leaves (newBroker config) :=
  .getThen fun _ => Leaves.set (.of_eq rfl) (.bind (leaves_spawn _) fun _ => .pure _)

@[grind ←]
theorem leaves_discardLater (broker : Nat) (orphan : Option ServiceId) :
    Leaves (discardLater broker orphan) := by
  cases orphan with
  | none => exact .pure ()
  | some id => exact .bind (leaves_spawn _) fun _ => .pure ()

@[grind ←]
theorem leaves_requestShutdown : Leaves requestShutdown :=
  .getThen fun _ => Leaves.set (.of_eq rfl) (leaves_wakeAll _)

@[grind ←]
theorem leaves_raise (name : String) : Leaves (raise name) := fun _ => .of_eq rfl

@[grind ←]
theorem leaves_openGate (name : String) : Leaves (openGate name) :=
  .getThen fun _ => Leaves.set (.of_eq rfl) (leaves_wakeAll _)

@[grind ←]
theorem leaves_abortTask (id : Nat) : Leaves (abortTask id) := by
  refine .getThen fun w => ?_
  split
  · exact .refl w
  · rename_i t ht
    split
    · exact .refl w
    · exact Leaves.set (.set_task ht rfl) (leaves_wakeTask id)

/-! ### How computations begin -/

@[grind ←]
theorem leaves_taking (things : Nat) (next : Begin a) : Leaves (taking things next) := by
  unfold taking
  grind

@[grind ←]
theorem leaves_listenerOf (spec : ListenerSpec Step) : Leaves (listenerOf spec) :=
  .bind leaves_slot fun _ => .pure _

@[grind ←]
theorem leaves_registering (broker : Nat) (t : Ticket) (service : Service)
    (act : Broker Action → Registration.Result Action) :
    Leaves (registering broker t service act) := by
  unfold registering
  grind

@[grind ←]
theorem leaves_dispatched (broker : Nat) (deadline : Option Duration)
    (next : Dispatch.Next Action) : Leaves (dispatched broker deadline next) := by
  unfold dispatched
  grind

@[grind ←]
theorem leaves_dispatching (broker : Nat)
    (act : Broker Action → Broker Action × Dispatch.Next Action) :
    Leaves (dispatching broker act) :=
  .bind (leaves_onBroker _ _) fun _ => leaves_dispatched _ _ _

@[grind ←]
theorem leaves_subscribing (broker : Nat)
    (act : Broker Action → Broker Action × Called Action) : Leaves (subscribing broker act) := by
  unfold subscribing
  grind

@[grind ←]
theorem leaves_listing (broker : Nat)
    (act : Broker Action → Broker Action × Called Action) : Leaves (listing broker act) := by
  unfold listing
  grind

@[grind ←]
theorem leaves_setUpFrom (broker : Nat) (handle : Handle) (name : String) (ending : Ending)
    (steps : List Step) : Leaves (setUpFrom broker handle name ending steps) := by
  unfold setUpFrom
  grind

@[grind ←]
theorem leaves_listenAll (broker : Nat) (handle : Handle) (last : Option Record)
    (listeners : List (Listener Action)) : Leaves (listenAll broker handle last listeners) := by
  unfold listenAll
  grind

@[grind ←]
theorem leaves_setUp (broker : Nat) (handle : Handle) (service : Service) :
    Leaves (setUp broker handle service) := by
  cases service with
  | scripted name body ending leak =>
      exact .bind (.modify fun _ => rfl) fun _ =>
        leaves_setUpFrom _ _ _ _ _
  | abrupt name payload => exact .pure _
  | _ => exact leaves_listenAll _ _ _ _

@[grind ←]
theorem leaves_scheduleMappings (file : Entry) (content : Bytes) :
    Leaves (scheduleMappings file content) := by
  unfold scheduleMappings
  grind

@[grind ←]
theorem leaves_react (action : Action) (e : Event) : Leaves (react action e) := by
  cases action with
  | closeWorkspace index =>
      have hclose : Leaves (react (.closeWorkspace index) e) := by
        refine .workspaceThen fun w => ?_
        have hkeeps : Workspace.Keeps (w.workspaceAt index) (w.workspaceAt index).close :=
          .after _ (q := .close) trivial
        have hset := uneventful_setWorkspace hkeeps
        exact hset.trans (Leaves.bind (leaves_write _) (fun _ => .pure _) _)
      exact hclose
  | _ =>
      unfold react
      grind

@[grind ←]
theorem leaves_listener (action : Action) (e : Event) : Leaves (listener action e) := by
  unfold listener
  grind

@[grind ←]
theorem leaves_runBody (job : JobId) (body : JobBody) : Leaves (runBody job body) := by
  unfold runBody
  grind

@[grind ←]
theorem leaves_admitted (job : JobId) (t : Ticket) (body : JobBody) (admission : Pool.Admission) :
    Leaves (admitted job t body admission) := by
  unfold admitted
  grind

@[grind ←]
theorem leaves_spawnBlocking (job : JobId) (work : Work) : Leaves (spawnBlocking job work) :=
  .bind (leaves_updatePool _) fun _ => .getThen fun _ =>
    (Uneventful.push _).trans (.of_eq rfl)

@[grind ←]
theorem leaves_body (job : JobId) (body : JobBody) : Leaves (Sim.body job body) := by
  unfold Sim.body
  grind

@[grind ←]
theorem leaves_callPlugin (who : String) (p : Plugin) (content : Bytes)
    (rest : Ending → Frame .results .job) : Leaves (callPlugin who p content rest) := by
  unfold callPlugin
  grind

@[grind ←]
theorem leaves_work (job : JobId) (work : Work) : Leaves (Sim.work job work) := by
  unfold Sim.work
  grind

@[grind ←]
theorem leaves_announce (ws : Nat) (entry : Entry) (notice : Notice) :
    Leaves (addFile.announce ws entry notice) := by
  unfold addFile.announce
  grind

@[grind ←]
theorem leaves_newViewCall (file : EntryId) (viewType : String) :
    Leaves (newViewCall file viewType) := fun _ => .of_eq rfl

@[grind ←]
theorem leaves_handOverView (call : Nat) : Leaves (handOverView call) := fun _ => .of_eq rfl

@[grind ←]
theorem leaves_goOnView (call : Nat) (c : Generation.Call Renderer) : Leaves (goOnView call c) := by
  unfold goOnView
  grind

/-- A turn of a call for a view may keep its data, and changes no file. -/
theorem keeps_turn (c : Generation.Call Renderer) (state : Workspace) (v : Views Renderer)
    (job : JobResult) (now : Nat) : state.Keeps (c.turn state v job now).1 := by
  have hturned := c.turned state v job now
  generalize c.turn state v job now = turned at hturned
  obtain ⟨state', c'⟩ := turned
  cases hturned with
  | kept g revision data now w' r hstore =>
      exact .of_ok (q := .store g.file revision g.viewType data now) trivial rfl hstore
  | _ => exact .refl _

@[grind ←]
theorem leaves_turnView (call : Nat) (job : JobResult) : Leaves (turnView call job) := by
  refine .workspaceThen fun w => ?_
  let c := w.viewCalls[call]?.getD default
  let turned := c.turn (w.workspaceAt 0) w.views job w.nextStamp
  let v : World :=
    { w with
      nextStamp := w.nextStamp + 1
      records := w.records ++ c.turnRecords (w.workspaceAt 0) w.views w.nextStamp
      viewCalls := w.viewCalls.set! call turned.2 }
  have hturned : Uneventful w v := .of_eq rfl
  have hset : Uneventful v ((setWorkspace 0 turned.1).run v).2 :=
    uneventful_setWorkspace (keeps_turn c (w.workspaceAt 0) w.views job w.nextStamp)
  exact (hturned.trans hset).trans (leaves_goOnView call turned.2 _)

@[grind ←]
theorem leaves_startNext (next : Startup.Next Service) : Leaves (startNext next) := by
  unfold startNext
  grind

/-! ### Steps -/

@[grind ←]
theorem leaves_named (found : Option α) (missing : Script.Result) {go : α → Sim (Future .result)}
    (hgo : ∀ v, Leaves (go v)) : Leaves (named found missing go) := by
  cases found with
  | none => exact .pure _
  | some v => exact hgo v

@[grind ←]
theorem leaves_brokerStep (context : Context) (broker : Nat) (s : BrokerStep Step) :
    Leaves (brokerStep context broker s) := by
  unfold brokerStep
  grind

@[grind ←]
theorem leaves_controlStep (context : Context) (s : ControlStep Step) :
    Leaves (controlStep context s) := by
  cases s with
  | spawn label steps =>
      refine .bind (.optionForM (fun job => leaves_updatePool _) _) fun _ => ?_
      refine .bind (leaves_spawn _) fun id => ?_
      exact .bind (.modify fun _ => rfl) fun _ => .pure _
  | join label =>
      refine .getThen fun w => ?_
      cases w.taskLabels.lookup label with
      | none => exact .refl w
      | some id => exact Leaves.set (.of_eq rfl) (.bind leaves_ticket fun _ => .pure _)
  | _ =>
      unfold controlStep
      grind

@[grind ←]
theorem leaves_submitted (name : String) (label : Option String) (body : JobBody) :
    Leaves (poolStep.submitted name label body) :=
  .bind (leaves_submit _ _) fun _ =>
    .bind (.modify fun _ => rfl) fun _ => .pure _

@[grind ←]
theorem leaves_poolStep (context : Context) (s : PoolStep Step) : Leaves (poolStep context s) := by
  cases s with
  | wait label =>
      refine .getThen fun w => ?_
      cases w.jobLabels.lookup label with
      | none => exact .refl w
      | some id => exact Leaves.set (.of_eq rfl) (.bind leaves_ticket fun _ => .pure _)
  | _ =>
      unfold poolStep
      grind

@[grind ←]
theorem leaves_lifecycleStep (s : LifecycleStep Step) : Leaves (lifecycleStep s) := by
  unfold lifecycleStep
  grind

theorem leaves_addDirectory (ws : Nat)
    {add : Workspace → Except WorkspaceError (Workspace × Entry)}
    (hadd : ∀ state state' e, add state = .ok (state', e) → state.Keeps state') :
    Leaves (addDirectory ws add) := by
  refine .workspaceThen fun w => ?_
  cases hadded : add (w.workspaceAt ws) with
  | error e => exact .refl w
  | ok added =>
      obtain ⟨state, e⟩ := added
      exact uneventful_setWorkspace (hadd _ _ _ hadded)

@[grind ←]
theorem leaves_ask (ws : Nat) (question : Workspace → Except WorkspaceError α)
    (display : α → Script.Result) : Leaves (ask ws question display) :=
  .bind (leaves_workspace ws) fun _ => .pure _

@[grind ←]
theorem leaves_keepViewLabel (label : Option String) (view : Option View) :
    Leaves (keepViewLabel label view) := by
  cases view <;> exact fun _ => .of_eq rfl

/-- Whatever else a workspace is asked for, its files stay as they are. -/
theorem leaves_workspaceStep (context : Context) (ws : Nat) {s : WorkspaceStep}
    (hs : ¬ (Begin.perform context (.workspace ws s)).WritesFile) :
    Leaves (workspaceStep ws s) := by
  cases s with
  | addFile | addClass | update => exact absurd trivial hs
  | addDirectory name parent =>
      exact leaves_addDirectory ws fun _ _ _ => .of_ok (q := .directory name parent) trivial rfl
  | addArchive name parent =>
      exact leaves_addDirectory ws fun _ _ _ => .of_ok (q := .archive name parent) trivial rfl
  | snapshot id label =>
      refine .bind (leaves_workspace ws) fun state => ?_
      simp only
      split
      · exact .bind (.modify fun _ => rfl) fun _ => .pure _
      · exact .pure _
  | store id revision viewType data label =>
      refine .bind .get fun w => leaves_named _ _ fun revision => .workspaceThen fun w => ?_
      let before := w.workspaceAt ws
      let v := (stamp.run ((writeAll (before.storeRecords id revision viewType)).run w).2).2
      have hstamped : Uneventful w v := (leaves_writeAll _ w).trans (leaves_stamp _)
      rw [run_bind, run_bind]
      split
      · exact hstamped
      · rename_i state r hstore
        have hkeeps : (v.workspaceAt ws).Keeps state :=
          .of_ok (q := .store id revision viewType data w.nextStamp) trivial rfl hstore
        have hset : Uneventful w ((setWorkspace ws state).run v).2 :=
          hstamped.trans (uneventful_setWorkspace hkeeps)
        exact hset.trans (Leaves.bind (leaves_keepViewLabel label (some r)) (fun _ => .pure _) _)
  | _ =>
      unfold workspaceStep
      grind

@[grind ←]
theorem leaves_setTypes (change : MappingTypes → Except MappingError MappingTypes) :
    Leaves (setTypes change) := by
  refine .getThen fun w => ?_
  split
  · exact .refl w
  · exact .of_eq rfl

@[grind ←]
theorem leaves_featureStep (s : FeatureStep Step) : Leaves (featureStep s) := by
  cases s with
  | newWorkspace broker => exact fun _ => .push_workspace broker
  | factory name spec =>
      refine .bind (leaves_plugin spec) fun p => ?_
      exact .bind (.modify fun _ => rfl) fun _ => .pure _
  | generator viewType rendering spec =>
      refine .bind (leaves_plugin spec) fun p => ?_
      exact .bind (.modify fun _ => rfl) fun _ => .pure _
  | _ =>
      unfold featureStep
      grind

theorem leaves_perform (context : Context) {s : Step}
    (hs : ¬ (Begin.perform context s).WritesFile) : Leaves (perform context s) := by
  cases s with
  | workspace ws s => exact leaves_workspaceStep context ws hs
  | _ =>
      unfold perform
      grind

@[grind ←]
theorem leaves_needs (s : Step) : Leaves (needs s) := by
  unfold needs needs.needsView
  grind

/-- A step that writes a file has to take the workspace first. -/
@[grind ←]
theorem leaves_step (context : Context) (s : Step) : Leaves (step context s) := by
  by_cases hs : (Begin.perform context s).WritesFile
  · have hneeds : needs s = pure 1 := by
      cases s with
      | workspace ws s =>
          cases s with
          | addFile | addClass | update => rfl
          | _ => exact False.elim hs
      | _ => exact False.elim hs
    have htaking : step context s =
        (writeAll (intention s) >>= fun _ => taking 1 (.perform context s)) := by
      rw [step, hneeds]
      rfl
    rw [htaking]
    grind
  · have hperform := leaves_perform context hs
    unfold step
    grind

/-! ### How computations go on -/

@[grind ←]
theorem leaves_startStop (reason : ShutdownReason) : Leaves (startStop reason) := by
  unfold startStop
  grind

@[grind ←]
theorem leaves_posting (broker : Nat) (t : Ticket) (id : ServiceId) :
    Leaves (posting broker t id) := by
  unfold posting
  grind

theorem leaves_begin {start : Begin a} (hstart : ¬ start.WritesFile) : Leaves (begin start) := by
  cases start with
  | interruption =>
      refine .bind leaves_ticket fun t => .getThen fun w => ?_
      split <;> exact .of_eq rfl
  | perform context s => exact leaves_perform context hstart
  | _ =>
      rw [begin]
      grind

@[grind ←]
theorem leaves_jobEnd (token : Option JobId) (ending : Ending) : Leaves (jobEnd token ending) := by
  unfold jobEnd
  grind

@[grind ←]
theorem leaves_present (sink : Sink) (r : Script.Result) : Leaves (present sink r) := by
  unfold present
  grind

@[grind ←]
theorem leaves_importClass (ws : Nat) (entry : Entry) (content : Bytes) :
    Leaves (importClass ws entry content) := by
  unfold importClass
  grind

@[grind ←]
theorem leaves_dropFrame (frame : Frame a b) : Leaves (dropFrame frame) := by
  unfold dropFrame
  grind

@[grind ←]
theorem leaves_setUpEnded (broker : Nat) (t : Ticket) (handle : Handle) (service : Service)
    (outcome : Outcome (Except ServiceError Unit)) :
    Leaves (setUpEnded broker t handle service outcome) := by
  unfold setUpEnded
  grind

/-- Code that broke off takes its callers with it, or its guard goes on. -/
theorem leaves_resume_panicked (frame : Frame a b) (payload : Payload) :
    Leaves (resume frame (.panicked payload)) := by
  cases frame with
  | guarded => exact .pure _
  | settingUp broker t handle service => exact leaves_setUpEnded _ _ _ _ _
  | delivered broker d s deadline => exact leaves_dispatching _ _
  | bodyEnd job deadline => exact leaves_taking _ _
  | _ => exact .bind (leaves_dropFrame _) fun _ => .pure _

theorem leaves_resume_returned (frame : Frame a b) (v : a.Value) :
    Leaves (resume frame (.returned v)) := by
  cases frame with
  | settingUp broker t handle service => exact leaves_setUpEnded _ _ _ _ _
  | delivered broker d s deadline => exact leaves_dispatching _ _
  | bodyEnd job deadline => exact leaves_taking _ _
  | keepHandle label =>
      cases v with
      | error e => exact .pure _
      | ok handle => exact .bind (.modify fun _ => rfl) fun _ => .pure _
  | drainEnd grace =>
      cases v with
      | none => exact leaves_taking _ _
      | some => exact .bind (leaves_updatePool _) fun _ => .pure _
  | _ =>
      unfold resume
      grind

@[grind ←]
theorem leaves_resume (frame : Frame a b) (o : Outcome a.Value) : Leaves (resume frame o) := by
  cases o with
  | returned v => exact leaves_resume_returned frame v
  | panicked payload => exact leaves_resume_panicked frame payload

/-! ### Looks at a wait -/

@[grind ←]
theorem leaves_waitUntil (w : Wait a) (ready : Option a.Value) {enter leave : Sim Unit}
    (henter : Leaves enter) (hleave : Leaves leave) : Leaves (waitUntil w ready enter leave) := by
  cases ready with
  | none => exact .bind henter fun _ => .pure _
  | some v => exact .bind hleave fun _ => .pure _

@[grind ←]
theorem leaves_dropWait (w : Wait a) : Leaves (dropWait w) := by
  cases w with
  | gate | shutdown | interruption | task | blocking =>
      exact .modify fun _ => rfl
  | _ =>
      unfold dropWait
      grind

@[grind ←]
theorem leaves_listen (w : Wait a) : Leaves (listen w) := by
  unfold listen listen.hear
  grind

@[grind ←]
theorem leaves_taken (w : Wait a) (p : Polled a) : Leaves (taken w p) := by
  unfold taken
  grind

@[grind ←]
theorem leaves_take (w : Wait a) {look : Sim (Polled a)} (hlook : Leaves look) :
    Leaves (take w look) := by
  unfold take
  grind

@[grind ←]
theorem leaves_workOff (broker : Nat) : Leaves (workOff broker) := by
  unfold workOff
  grind

@[grind ←]
theorem leaves_watchTrigger (t : Ticket) : Leaves (check.watchTrigger t) := fun _ => .of_eq rfl

@[grind ←]
theorem leaves_check (w : Wait a) : Leaves (check w) := by
  cases w with
  | gate name t =>
      refine .bind .get fun w => leaves_waitUntil _ _ ?_ (leaves_dropWait _)
      exact .modify fun _ => rfl
  | task task t =>
      refine leaves_take _ (.bind .get fun w => leaves_waitUntil _ _ ?_ (leaves_dropWait _))
      exact .modify fun _ => rfl
  | blocking task t =>
      refine leaves_take _ (.bind .get fun w => leaves_waitUntil _ _ ?_ (leaves_dropWait _))
      exact .modify fun _ => rfl
  | _ =>
      unfold check
      grind

@[grind ←]
theorem leaves_drop (f : Future a) : Leaves (drop f) := by
  induction f with
  | wait w => exact leaves_dropWait w
  | bind inner frame ih => exact .bind ih fun _ => leaves_dropFrame frame
  | within alarm inner ih => exact .bind ih fun _ => leaves_unset alarm
  | followed first others ihfirst ihothers => exact .bind ihfirst fun _ => ihothers
  | abandon broker alarm fill inner ih => exact .bind ih fun _ => .optionForM leaves_unset alarm
  | _ => exact .pure ()

/-! ### Turns -/

@[grind ←]
theorem leaves_rings (alarm : Alarm) (couldTake : Bool) : Leaves (rings alarm couldTake) := by
  unfold rings
  grind

@[grind ←]
theorem leaves_abandon (broker fill : Nat) (f : Future .handle) :
    Leaves (abandon broker fill f) := by
  refine .bind (.mapM (fun n => ?_) _) fun calls => ?_
  · refine .bind leaves_ticket fun t => .bind (leaves_listing _ _) fun g => ?_
    grind
  · exact .bind (leaves_drop f) fun _ => .forM leaves_drop calls

end Sim

end EventHub.Simulation
