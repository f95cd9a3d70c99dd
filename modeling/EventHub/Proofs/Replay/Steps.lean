import EventHub.Proofs.Replay.Calm
import EventHub.Simulation.Steps

/-!
Steps that ask no broker, and what they begin. Calls to a broker that a step only
prepares are begun later.
-/

namespace EventHub.Simulation.Sim

open EventHub.Script

variable {k : Nat}

theorem tame_answer (r : Script.Result) : Tame k (pure (answer r)) := .pure fun _ => rfl

theorem tame_named {α : Type} (found : Option α) (missing : Script.Result)
    {go : α → Sim (Future .result)} (hgo : ∀ a, Tame k (go a)) :
    Tame k (named found missing go) := by
  cases found with
  | none => exact tame_answer _
  | some a => exact hgo a

theorem TameAt.named {α : Type} {w : World} (found : Option α) (missing : Script.Result)
    {go : α → Sim (Future .result)} (hgo : ∀ a, TameAt k w (go a)) :
    TameAt k w (Sim.named found missing go) := by
  cases found with
  | none => exact tame_answer _ w
  | some a => exact hgo a

theorem plain_showUnit {f : Future .unit} (h : f.Plain k) : (showUnit f).Plain k := h.map _

theorem plain_showDrain {f : Future .drain} (h : f.Plain k) : (showDrain f).Plain k := h.map _

theorem plain_showEntry {f : Future .entry} (h : f.Plain k) : (showEntry f).Plain k := h.map _

theorem plain_showGenerated (label : Option String) {f : Future .view} (h : f.Plain k) :
    (showGenerated label f).Plain k := by
  apply Future.Plain.map
  exact .bind h fun _ => rfl

/-- What broke off is guarded. -/
theorem tame_guarded {f : Future .result} (h : f.Plain k) :
    Tame k (pure (Future.bind f .guarded)) :=
  .pure (.bind (g := Frame.guarded) h fun _ => rfl)

theorem calms_listenerOf (spec : ListenerSpec Step) : Calms k (listenerOf spec) :=
  .bind calms_slot fun _ => .pure _

theorem tame_controlStep (context : Context) (s : ControlStep Step) :
    Tame k (controlStep context s) := by
  cases s with
  | sleep ms => exact .pure (plain_showUnit (.begin rfl))
  | all steps => exact .pure (.map (.begin rfl) _)
  | yields rounds => exact .bind calms_ticket fun t => .pure (plain_showUnit fun _ => rfl)
  | waitGate gate => exact .bind calms_ticket fun t => .pure (plain_showUnit fun _ => rfl)
  | openGate gate => exact .bind (calms_openGate gate) fun _ => tame_answer _
  | within ms inner =>
      refine .bind (calms_alarmAfter _) fun alarm => .pure (.map (fun x => ?_) _)
      exact Future.Plain.begin (k := k) (b := .step context inner) rfl x
  | spawn label steps =>
      refine .bind (.optionForM (fun job => calms_updatePool _) _) fun _ => ?_
      refine .bind (calms_spawn fun x => Future.Plain.begin (k := k) rfl x) fun id => ?_
      refine .bind (.modify (fun _ => rfl) (fun _ => rfl) (fun _ => rfl) fun _ => rfl) fun _ => ?_
      exact tame_answer _
  | join label =>
      refine .get fun w => .named _ _ fun id => .set (.of_eq rfl (Nat.le_refl _) rfl rfl) ?_
      refine .bind calms_ticket fun t => .pure (.map ?_ _)
      exact fun _ => rfl
  | abort label =>
      refine .bind .get fun w => tame_named _ _ fun id => ?_
      exact .bind (calms_abortTask id) fun _ => tame_answer _
  | newBroker config =>
      simp only [controlStep]
      split
      · exact tame_guarded (.panic _)
      · exact .bind (calms_newBroker config) fun _ => tame_answer _
  | compareHandles a b =>
      refine .bind .get fun w => tame_named _ _ fun ha => tame_named _ _ fun hb => ?_
      exact tame_answer _

theorem tame_submitted (name : String) (label : Option String) (body : JobBody) :
    Tame k (poolStep.submitted name label body) := by
  refine .bind (calms_submit _ _) fun id => ?_
  refine .bind (.modify (fun _ => rfl) (fun _ => rfl) (fun _ => rfl) fun _ => rfl) fun _ => ?_
  exact tame_answer _

theorem tame_poolStep (context : Context) (s : PoolStep Step) : Tame k (poolStep context s) := by
  cases s with
  | submit job label => exact tame_submitted _ _ _
  | submitBlocking job label => exact tame_submitted _ _ _
  | wait label =>
      refine .get fun w => .named _ _ fun id => .set (.of_eq rfl (Nat.le_refl _) rfl rfl) ?_
      refine .bind calms_ticket fun t => .pure (.map ?_ _)
      exact fun _ => rfl
  | abort label =>
      refine .bind .get fun w => tame_named _ _ fun id => ?_
      dsimp only
      split
      · exact tame_answer _
      · exact .bind (calms_abortTask _) fun _ => tame_answer _
  | live => exact .bind .get fun w => tame_answer _
  | isClosed => exact .bind .get fun w => tame_answer _
  | shutdown grace =>
      simp only [poolStep]
      split
      · exact tame_guarded (.panic _)
      · exact .pure (plain_showDrain (.begin rfl))
  | waitCancel =>
      refine tame_named _ _ fun token => .bind calms_ticket fun t => .pure ?_
      exact plain_showUnit fun _ => rfl
  | isCanceled => exact tame_named _ _ fun token => .bind .get fun w => tame_answer _

theorem tame_lifecycleStep (s : LifecycleStep Step) : Tame k (lifecycleStep s) := by
  cases s with
  | start services => exact .pure (.map (.begin rfl) _)
  | stop reason => exact .pure (plain_showDrain (.begin rfl))
  | run services wake =>
      have hrun : Tame k (pure (showDrain (.bind (.begin (.start services)) .runStarted))) := by
        refine .pure (plain_showDrain (.bind (.begin rfl) ?_))
        exact fun _ => rfl
      cases wake with
      | none => exact hrun
      | some wake =>
          refine .bind (calms_spawn fun x => ?_) fun _ => hrun
          exact Or.inl (Future.Plain.begin (k := k) (b := .wake wake) rfl x)
  | requestShutdown => exact .bind calms_requestShutdown fun _ => tame_answer _
  | shutdownRequested =>
      refine .bind calms_ticket fun t => .pure ?_
      exact plain_showUnit fun _ => rfl
  | isShuttingDown => exact .bind .get fun w => tame_answer _
  | config => exact .bind .get fun w => tame_answer _

theorem tame_addDirectory (ws : Nat)
    (add : Workspace → Except WorkspaceError (Workspace × Entry)) :
    Tame k (addDirectory ws add) := by
  refine .bind (calms_workspace ws) fun state => ?_
  split
  · exact tame_answer _
  · exact .bind (calms_setWorkspace _ _) fun _ => tame_answer _

theorem tame_ask {α : Type} (ws : Nat) (question : Workspace → Except WorkspaceError α)
    (display : α → Script.Result) : Tame k (ask ws question display) :=
  .bind (calms_workspace ws) fun _ => tame_answer _

theorem tame_announce (ws : Nat) (entry : Entry) (notice : Notice) :
    Tame k (addFile.announce ws entry notice) := by
  refine .bind (calms_event notice) fun e => .bind .get fun w => .pure (.map ?_ _)
  exact .begin rfl

theorem tame_addFile (ws : Nat) (name : String) (parent : Option EntryId) (data : Bytes) :
    Tame k (addFile ws name parent data) := by
  refine .bind (calms_workspace ws) fun state => ?_
  split
  · exact .pure (.value _)
  · exact .bind (calms_setWorkspace _ _) fun _ => tame_announce _ _ _

theorem tame_update (ws : Nat) (id : EntryId) (data : Bytes) : Tame k (update ws id data) := by
  refine .bind (calms_workspace ws) fun state => ?_
  split
  · exact .pure (.value _)
  · refine .bind (calms_writeAll _) fun _ => .bind (calms_setWorkspace _ _) fun _ => ?_
    exact tame_announce _ _ _

/-- What comes of a tame computation's result. -/
theorem Tame.map {a b : Shape} {m : Sim (Future a)} (h : Tame k m) {f : Future a → Future b}
    (hf : ∀ inner, inner.Plain k → (f inner).Plain k) :
    Tame k (m >>= fun inner => Pure.pure (f inner)) :=
  fun w => ⟨(h w).1, hf _ (h w).2⟩

theorem tame_workspaceStep (ws : Nat) (s : WorkspaceStep) : Tame k (workspaceStep ws s) := by
  cases s with
  | isClosed => exact .bind (calms_workspace ws) fun _ => tame_answer _
  | addDirectory name parent => exact tame_addDirectory _ _
  | addArchive name parent => exact tame_addDirectory _ _
  | addFile name parent data =>
      exact (tame_addFile ws name parent data).map fun _ => plain_showEntry
  | addClass name parent data =>
      refine (tame_addFile ws name parent data).map fun inner hinner => plain_showEntry ?_
      exact .bind hinner fun _ => rfl
  | update id data => exact (tame_update ws id data).map fun _ => plain_showEntry
  | find path => exact tame_ask _ _ _
  | lookUp id => exact tame_ask _ _ _
  | path id => exact tame_ask _ _ _
  | directory id => exact tame_ask _ _ _
  | tree id => exact tame_ask _ _ _
  | content id => exact tame_ask _ _ _
  | snapshot id label =>
      refine .bind (calms_workspace ws) fun state => ?_
      dsimp only
      split
      · refine .bind ?_ fun _ => tame_answer _
        exact .modify (fun _ => rfl) (fun _ => rfl) (fun _ => rfl) fun _ => rfl
      · exact tame_answer _
  | exportFile id writer => exact .bind (calms_workspace ws) fun _ => tame_answer _
  | store id revision viewType data label =>
      refine .bind .get fun w => tame_named _ _ fun revision => ?_
      refine .bind (calms_workspace ws) fun state => .bind (calms_writeAll _) fun _ => ?_
      refine .bind calms_stamp fun stamp => ?_
      split
      · exact tame_answer _
      · refine .bind (calms_setWorkspace _ _) fun _ => ?_
        exact .bind (calms_keepViewLabel _ _) fun _ => tame_answer _
  | view id viewType label =>
      refine .bind (calms_workspace ws) fun state => ?_
      dsimp only
      split
      · exact .bind (calms_keepViewLabel _ _) fun _ => tame_answer _
      · exact tame_answer _
  | viewData label viewType file =>
      exact .bind .get fun w => tame_named _ _ fun r => tame_ask _ _ _

theorem tame_setTypes (change : MappingTypes → Except MappingError MappingTypes) :
    Tame k (setTypes change) := by
  intro w
  rw [setTypes, TameAt, run_bind]
  dsimp only
  split
  · exact ⟨.refl w, fun _ => rfl⟩
  · exact ⟨.of_eq rfl (Nat.le_refl _) rfl rfl, fun _ => rfl⟩

theorem tame_featureStep (s : FeatureStep Step) : Tame k (featureStep s) := by
  cases s with
  | newWorkspace broker =>
      exact .get fun w => .set (.of_eq rfl (Nat.le_refl _) rfl rfl) (tame_answer _)
  | compareViews a b =>
      exact .bind .get fun w => tame_named _ _ fun ra => tame_named _ _ fun rb => tame_answer _
  | symbol name => exact tame_setTypes _
  | reference name symbol => exact tame_setTypes _
  | referenced name =>
      refine .bind .get fun w => ?_
      split <;> exact tame_answer _
  | symbols => exact .bind .get fun w => tame_answer _
  | factory name spec =>
      refine .bind (calms_plugin spec) fun p => .bind ?_ fun _ => tame_answer _
      exact .modify (fun _ => rfl) (fun _ => rfl) (fun _ => rfl) fun _ => rfl
  | map file data =>
      refine .bind (calms_scheduleMappings file data) fun scheduled => ?_
      split
      · exact tame_guarded (.panic _)
      · exact tame_answer _
  | generator viewType rendering spec =>
      refine .bind (calms_plugin spec) fun p => .bind ?_ fun _ => tame_answer _
      exact .modify (fun _ => rfl) (fun _ => rfl) (fun _ => rfl) fun _ => rfl
  | view id viewType label => exact tame_guarded (plain_showGenerated label (.begin rfl))
  | exportView label writer =>
      refine .bind .get fun w => tame_named _ _ fun r => ?_
      exact .bind (calms_workspace 0) fun _ => tame_answer _

/-- Whether a step asks a broker before it has begun anything else. -/
def AsksAtOnce : BrokerStep Step → Prop
  | .services => True
  | .shut => True
  | _ => False

theorem tame_brokerStep (context : Context) (j : Nat) {s : BrokerStep Step} (hs : ¬ AsksAtOnce s) :
    Tame k (brokerStep context j s) := by
  cases s with
  | register service label =>
      refine .pure (.map (.bind (.begin rfl) ?_) _)
      exact fun _ => rfl
  | listen spec service =>
      refine .bind .get fun w => ?_
      cases service <;> exact tame_named _ _ fun handle =>
        .bind (calms_listenerOf spec) fun listener => .pure (.map (.begin rfl) _)
  | fire notice => exact .bind (calms_event notice) fun e => .pure (.map (.begin rfl) _)
  | services => exact absurd trivial hs
  | shut => exact absurd trivial hs
  | isClosed => exact .bind .get fun w => tame_answer _
  | describe => exact .bind .get fun w => tame_answer _
  | raceClose steps =>
      refine .pure (.map ?_ _)
      exact fun _ => rfl
  | abandon service ms fill =>
      refine .bind (.mapM (fun ms => calms_alarmAfter _) ms) fun alarm => .pure fun x => ?_
      exact Future.Plain.begin (k := k) (b := .register j service) rfl x

/-- Whether a step asks a broker when it is carried out. -/
def AsksBroker : Step → Prop
  | .broker _ s => AsksAtOnce s
  | _ => False

theorem tame_perform (context : Context) {s : Step} (hs : ¬ AsksBroker s) :
    Tame k (perform context s) := by
  cases s with
  | broker j s => exact tame_brokerStep context j hs
  | control s => exact tame_controlStep context s
  | pool s => exact tame_poolStep context s
  | lifecycle s => exact tame_lifecycleStep s
  | workspace ws s => exact tame_workspaceStep ws s
  | feature s => exact tame_featureStep s
  | unknown name => exact tame_answer _

theorem calms_needs (s : Step) : Calms k (needs s) := by
  intro w
  rw [needs.eq_def]
  split <;> exact .refl w

end EventHub.Simulation.Sim
