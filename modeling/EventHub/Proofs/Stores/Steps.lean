import EventHub.Proofs.Stores.Code

/-!
What the steps of a script do to the stores. A step of a workspace is one request of
it, a step of the pool is one move; what a step begins is no part of a job's course,
but for the task of a job that it submits.
-/

namespace EventHub.Simulation.Sim

open EventHub.Script

variable {α : Type} {i : Option Nat} {w : World}

theorem jobless_answer (r : Script.Result) : Jobless i (pure (answer r)) := .pure rfl

theorem jobless_named (found : Option α) (missing : Script.Result)
    {go : α → Sim (Future .result)} (hgo : ∀ a, Jobless i (go a)) :
    Jobless i (named found missing go) := by
  cases found with
  | none => exact jobless_answer _
  | some a => exact hgo a

theorem YieldsAt.named {found : Option α} {missing : Script.Result}
    {go : α → Sim (Future .result)}
    (hgo : ∀ a, YieldsAt i w (fun f => f.isJobless = true) (go a)) :
    YieldsAt i w (fun f => f.isJobless = true) (Sim.named found missing go) := by
  cases found with
  | none => exact jobless_answer _ w
  | some a => exact hgo a

theorem jobless_taking {a : Shape} (things : Nat) {next : Begin a} (h : next.isJobless = true) :
    Jobless i (taking things next) := by
  refine .bind does_ticket fun t => .pure ?_
  exact Future.isJobless_bind.mpr ⟨rfl, h⟩

/-! ### Calls to a broker -/

theorem jobless_registering (broker : Nat) (t : Ticket) (service : Service)
    (act : Broker Action → Registration.Result Action) :
    Jobless i (registering broker t service act) := by
  refine .bind (does_onBroker _ _) fun result => .bind (does_discardLater _ _) fun _ => ?_
  split <;> exact .pure rfl

theorem jobless_dispatched (broker : Nat) (deadline : Option Duration)
    (next : Dispatch.Next Action) : Jobless i (dispatched broker deadline next) := by
  cases next with
  | asking event call => exact .pure rfl
  | finished result => exact .pure rfl
  | deliver s rest =>
      simp only [dispatched]
      cases Dispatch.mismatch? s rest.event <;> cases deadline with
      | none => exact .pure rfl
      | some d => exact .bind (does_alarmAfter d) fun alarm => .pure rfl

theorem jobless_dispatching (broker : Nat)
    (act : Broker Action → Broker Action × Dispatch.Next Action) :
    Jobless i (dispatching broker act) :=
  .bind (does_onBroker _ _) fun _ => jobless_dispatched _ _ _

theorem jobless_subscribing (broker : Nat)
    (act : Broker Action → Broker Action × Called Action) : Jobless i (subscribing broker act) := by
  refine .bind (does_onBroker _ _) fun result => ?_
  cases result <;> exact .pure rfl

theorem jobless_listing (broker : Nat)
    (act : Broker Action → Broker Action × Called Action) : Jobless i (listing broker act) := by
  refine .bind (does_onBroker _ _) fun result => ?_
  cases result <;> exact .pure rfl

theorem jobless_brokerStep (context : Context) (broker : Nat) (s : BrokerStep Step) :
    Jobless i (brokerStep context broker s) := by
  cases s with
  | register service label => exact .pure rfl
  | listen spec service =>
      refine .bind .get fun w => ?_
      cases service <;> exact jobless_named _ _ fun handle =>
        .bind (does_listenerOf spec) fun listener => .pure rfl
  | fire notice => exact .bind (does_event notice) fun e => .pure rfl
  | services =>
      refine .bind does_ticket fun t => .andThen (jobless_listing _ _) fun f hf => .pure ?_
      rw [Future.isJobless_map]
      exact hf
  | shut => exact .bind (does_onBroker _ _) fun _ => jobless_answer _
  | isClosed => exact .bind .get fun w => jobless_answer _
  | describe => exact .bind .get fun w => jobless_answer _
  | raceClose steps => exact .pure rfl
  | abandon service ms fill =>
      exact .bind (.optionMapM (fun ms => does_alarmAfter _) ms) fun alarm => .pure rfl

/-! ### Control, pool and lifecycle -/

theorem jobless_controlStep (context : Context) (s : ControlStep Step) :
    Jobless i (controlStep context s) := by
  cases s with
  | sleep ms => exact .pure rfl
  | all steps => exact .pure rfl
  | yields rounds => exact .bind does_ticket fun t => .pure rfl
  | waitGate gate => exact .bind does_ticket fun t => .pure rfl
  | openGate gate => exact .bind (does_openGate gate) fun _ => jobless_answer _
  | within ms inner => exact .bind (does_alarmAfter _) fun alarm => .pure rfl
  | spawn label steps =>
      have hspawned : Does i (spawn (.script context.token
          (.begin (.steps context .nowhere steps)))) := does_spawn rfl
      refine .bind (.optionForM (fun job => ?_) _) fun _ => .bind hspawned fun id => ?_
      · exact does_updatePool (.borrow job) rfl nofun fun _ => rfl
      · exact .bind (.modify (fun _ => rfl) fun _ => rfl) fun _ => jobless_answer _
  | join label =>
      refine .get fun w => .named fun id => .set (.beside rfl rfl) ?_
      exact .bind does_ticket fun t => .pure rfl
  | abort label =>
      refine .bind .get fun w => jobless_named _ _ fun id => ?_
      exact .bind (does_abortTask id) fun _ => jobless_answer _
  | newBroker config =>
      simp only [controlStep]
      split
      · exact .pure rfl
      · exact .bind (does_newBroker config) fun _ => jobless_answer _
  | compareHandles a b =>
      refine .bind .get fun w => jobless_named _ _ fun ha => jobless_named _ _ fun hb => ?_
      exact jobless_answer _

theorem jobless_submitted (name : String) (label : Option String) (body : JobBody) :
    Jobless i (poolStep.submitted name label body) := by
  refine .bind (does_submit _ _) fun id => ?_
  exact .bind (.modify (fun _ => rfl) fun _ => rfl) fun _ => jobless_answer _

theorem jobless_poolStep (context : Context) (s : PoolStep Step) :
    Jobless i (poolStep context s) := by
  cases s with
  | submit job label => exact jobless_submitted _ _ _
  | submitBlocking job label => exact jobless_submitted _ _ _
  | wait label =>
      refine .get fun w => .named fun id => .set (.beside rfl rfl) ?_
      exact .bind does_ticket fun t => .pure rfl
  | abort label =>
      refine .bind .get fun w => jobless_named _ _ fun id => ?_
      dsimp only
      split
      · exact jobless_answer _
      · exact .bind (does_abortTask _) fun _ => jobless_answer _
  | live => exact .bind .get fun w => jobless_answer _
  | isClosed => exact .bind .get fun w => jobless_answer _
  | shutdown grace =>
      simp only [poolStep]
      split <;> exact .pure rfl
  | waitCancel => exact jobless_named _ _ fun token => .bind does_ticket fun t => .pure rfl
  | isCanceled => exact jobless_named _ _ fun token => .bind .get fun w => jobless_answer _

theorem jobless_lifecycleStep (s : LifecycleStep Step) : Jobless i (lifecycleStep s) := by
  cases s with
  | start services => exact .pure rfl
  | stop reason => exact .pure rfl
  | run services wake =>
      have hrun : Jobless i (pure (showDrain (.bind (.begin (.start services)) .runStarted))) :=
        .pure rfl
      cases wake with
      | none => exact hrun
      | some wake =>
          have hspawned : Does i (spawn (.unit (.begin (.wake wake)))) :=
            does_spawn rfl
          exact .bind hspawned fun _ => hrun
  | requestShutdown => exact .bind does_requestShutdown fun _ => jobless_answer _
  | shutdownRequested => exact .bind does_ticket fun t => .pure rfl
  | isShuttingDown => exact .bind .get fun w => jobless_answer _
  | config => exact .bind .get fun w => jobless_answer _

/-! ### Workspaces -/

/-- What a workspace was asked with the lock held is put in its place. -/
theorem proceeds_settled {ws : Nat} (q : Workspace.Request)
    (ask : Workspace → Except WorkspaceError (Workspace × α))
    (hask : ∀ state : Workspace, state.after q = state.settled (ask state))
    {state : Workspace} {a : α} (hok : ask ((workspace ws).run w).1 = .ok (state, a)) {w' : World}
    (hsame : w'.workspaces = w.workspaces) :
    Proceeds Pool.Move.IsOpen i w' ((setWorkspace ws state).run w').2 := by
  refine proceeds_setWorkspace q fun h hfound => ?_
  rw [hsame] at hfound
  rw [hask, ← (workspace_run ws w).2 h hfound, hok]
  rfl

theorem jobless_announce (ws : Nat) (entry : Entry) (notice : Notice) :
    Jobless i (addFile.announce ws entry notice) :=
  .bind (does_event notice) fun _ => .bind .get fun _ => .pure rfl

theorem jobless_addDirectory (ws : Nat) {q : Workspace.Request}
    {add : Workspace → Except WorkspaceError (Workspace × Entry)}
    (hadd : ∀ state : Workspace, state.after q = state.settled (add state)) :
    Jobless i (addDirectory ws add) := by
  intro w
  rw [addDirectory, YieldsAt, run_bind, (workspace_run ws w).1]
  split
  · exact jobless_answer _ w
  · rename_i state entry hok
    exact ⟨proceeds_settled q add hadd hok rfl, rfl⟩

theorem jobless_addFile (ws : Nat) (name : String) (parent : Option EntryId) (data : Bytes) :
    Jobless i (addFile ws name parent data) := by
  intro w
  rw [addFile, YieldsAt, run_bind, (workspace_run ws w).1]
  split
  · exact ⟨.refl w, rfl⟩
  · rename_i state entry hok
    have hset : Proceeds Pool.Move.IsOpen i w ((setWorkspace ws state).run w).2 :=
      proceeds_settled (.file name parent data) (·.addFile name parent data) (fun _ => rfl) hok rfl
    obtain ⟨hgoes, hjobless⟩ := jobless_announce ws entry (.added entry data) _
    exact ⟨hset.trans hgoes, hjobless⟩

theorem jobless_update (ws : Nat) (id : EntryId) (data : Bytes) :
    Jobless i (update ws id data) := by
  intro w
  rw [update, YieldsAt, run_bind, (workspace_run ws w).1]
  split
  · exact ⟨.refl w, rfl⟩
  · rename_i state entry hok
    let before : Workspace := ((workspace ws).run w).1
    let written : World := ((writeAll (before.updateRecords entry data)).run w).2
    have hset : Proceeds Pool.Move.IsOpen i written ((setWorkspace ws state).run written).2 :=
      proceeds_settled (.update id data) (·.update id data) (fun _ => rfl) hok rfl
    obtain ⟨hgoes, hjobless⟩ := jobless_announce ws entry (.updated entry data) _
    exact ⟨((does_writeAll _ w).trans hset).trans hgoes, hjobless⟩

theorem jobless_ask (ws : Nat) (question : Workspace → Except WorkspaceError α)
    (display : α → Script.Result) : Jobless i (ask ws question display) :=
  .bind (does_workspace ws) fun _ => jobless_answer _

/-- A view is stored while the workspace is locked. -/
theorem jobless_store (ws : Nat) (id : EntryId) (revision viewType : String) (data : Bytes)
    (label : Option String) :
    Jobless i (workspaceStep ws (.store id revision viewType data label)) := by
  refine .bind .get fun w => jobless_named _ _ fun revision => ?_
  intro w
  rw [YieldsAt, run_bind, (workspace_run ws w).1]
  let before : Workspace := ((workspace ws).run w).1
  let written : World := ((writeAll (before.storeRecords id revision viewType)).run w).2
  have hwritten : Proceeds Pool.Move.IsOpen i w written := does_writeAll _ w
  let stamped : World := ((stamp).run written).2
  have hstamped : Proceeds Pool.Move.IsOpen i w stamped := hwritten.trans (does_stamp written)
  rw [run_bind, run_bind]
  split
  · exact ⟨hstamped, rfl⟩
  · rename_i state r hok
    have hset : Proceeds Pool.Move.IsOpen i stamped ((setWorkspace ws state).run stamped).2 :=
      proceeds_settled (.store id revision viewType data (stamp.run written).1)
        (·.store id revision viewType data (stamp.run written).1) (fun _ => rfl) hok rfl
    have hkept := does_keepViewLabel (i := i) label (some r) ((setWorkspace ws state).run stamped).2
    exact ⟨(hstamped.trans hset).trans hkept, rfl⟩

theorem jobless_workspaceStep (ws : Nat) (s : WorkspaceStep) : Jobless i (workspaceStep ws s) := by
  cases s with
  | isClosed => exact .bind (does_workspace ws) fun _ => jobless_answer _
  | addDirectory name parent =>
      exact jobless_addDirectory (q := .directory name parent) ws fun _ => rfl
  | addArchive name parent => exact jobless_addDirectory (q := .archive name parent) ws fun _ => rfl
  | addFile name parent data =>
      refine .andThen (jobless_addFile ws name parent data) fun f hf => .pure ?_
      exact (Future.isJobless_map _).trans hf
  | addClass name parent data =>
      refine .andThen (jobless_addFile ws name parent data) fun f hf => .pure ?_
      exact (Future.isJobless_map _).trans (Future.isJobless_bind.mpr ⟨hf, rfl⟩)
  | update id data =>
      refine .andThen (jobless_update ws id data) fun f hf => .pure ?_
      exact (Future.isJobless_map _).trans hf
  | find path => exact jobless_ask _ _ _
  | lookUp id => exact jobless_ask _ _ _
  | path id => exact jobless_ask _ _ _
  | directory id => exact jobless_ask _ _ _
  | tree id => exact jobless_ask _ _ _
  | content id => exact jobless_ask _ _ _
  | snapshot id label =>
      refine .bind (does_workspace ws) fun state => ?_
      dsimp only
      split
      · exact .bind (.modify (fun _ => rfl) fun _ => rfl) fun _ => jobless_answer _
      · exact jobless_answer _
  | exportFile id writer => exact .bind (does_workspace ws) fun _ => jobless_answer _
  | store id revision viewType data label => exact jobless_store ws id revision viewType data label
  | view id viewType label =>
      refine .bind (does_workspace ws) fun state => ?_
      dsimp only
      split
      · exact .bind (does_keepViewLabel _ _) fun _ => jobless_answer _
      · exact jobless_answer _
  | viewData label viewType file =>
      exact .bind .get fun w => jobless_named _ _ fun r => jobless_ask _ _ _

/-! ### Features -/

theorem does_scheduleMappings (file : Entry) (content : Bytes) :
    Does i (scheduleMappings file content) := by
  refine .bind .get fun w => .bind (.forIn (fun f _ => ?_) _ _) fun _ => .pure _
  exact .bind (does_write _) fun _ => .bind (does_submit _ _) fun _ => .pure _

/-- A name that is accepted by the mapper's types is put in place. -/
theorem jobless_setTypes {change : MappingTypes → Except MappingError MappingTypes}
    (hchange : ∀ (s : Stores) (types : MappingTypes), change s.mapper.types = .ok types →
      Act Pool.Move.IsOpen s { s with mapper := { s.mapper with types } }) :
    Jobless i (setTypes change) := by
  intro w
  rw [setTypes, YieldsAt, run_bind]
  dsimp only
  split
  · exact ⟨.refl w, rfl⟩
  · rename_i types hok
    exact ⟨.act (hchange w.stores types hok) rfl rfl, rfl⟩

theorem jobless_featureStep (s : FeatureStep Step) : Jobless i (featureStep s) := by
  cases s with
  | newWorkspace broker =>
      exact .get fun w => .set (.act (.newWorkspace broker) rfl rfl) (jobless_answer _)
  | compareViews a b =>
      refine .bind .get fun w => jobless_named _ _ fun ra => jobless_named _ _ fun rb => ?_
      exact jobless_answer _
  | symbol name => exact jobless_setTypes fun s types h => .symbol name types h
  | reference name symbol => exact jobless_setTypes fun s types h => .reference name symbol types h
  | referenced name =>
      refine .bind .get fun w => ?_
      split <;> exact jobless_answer _
  | symbols => exact .bind .get fun w => jobless_answer _
  | factory name spec =>
      refine .bind (does_plugin spec) fun p => .bind ?_ fun _ => jobless_answer _
      exact .act (fun w => .factory _) (fun _ => rfl) fun _ => rfl
  | map file data =>
      refine .bind (does_scheduleMappings file data) fun scheduled => ?_
      split
      · exact .pure rfl
      · exact jobless_answer _
  | generator viewType rendering spec =>
      refine .bind (does_plugin spec) fun p => .bind ?_ fun _ => jobless_answer _
      exact .act (fun w => .generator _) (fun _ => rfl) fun _ => rfl
  | view id viewType label => exact .pure rfl
  | exportView label writer =>
      refine .bind .get fun w => jobless_named _ _ fun r => ?_
      exact .bind (does_workspace 0) fun _ => jobless_answer _

theorem jobless_perform (context : Context) (s : Step) : Jobless i (perform context s) := by
  cases s with
  | broker j s => exact jobless_brokerStep context j s
  | control s => exact jobless_controlStep context s
  | pool s => exact jobless_poolStep context s
  | lifecycle s => exact jobless_lifecycleStep s
  | workspace ws s => exact jobless_workspaceStep ws s
  | feature s => exact jobless_featureStep s
  | unknown name => exact jobless_answer _

theorem jobless_step (context : Context) (s : Step) : Jobless i (step context s) := by
  refine .bind (does_writeAll _) fun _ => .bind (does_needs _) fun things => ?_
  split
  · exact jobless_perform context s
  · exact jobless_taking _ rfl

end EventHub.Simulation.Sim
