import EventHub.Proofs.Replay.Reach
import EventHub.Proofs.Stores.Course
import EventHub.Proofs.Workspace.Revisions

/-!
Every world that a scenario comes to. Between two turns each task stands where its job
does, whoever runs next keeps that, and all that happens to the stores is acts. So the
pool of every world is one that moves have led to, and every workspace is one that
requests have led to: what holds of these lists holds of the worlds.
-/

namespace EventHub

open EventHub.Script EventHub.Simulation

namespace Simulation

/-- Acts on the stores, whoever they belong to. -/
abbrev AllActs : Stores → Stores → Prop := Acts fun _ => True

/-- A moment between two turns that is come to from another. -/
structure Turns (w w' : World) : Prop where
  acts : AllActs w.stores w'.stores
  inStep : InStep none w'

theorem Turns.trans {w w' w'' : World} (h : Turns w w') (h' : Turns w' w'') : Turns w w'' :=
  ⟨h.acts.trans h'.acts, h'.inStep⟩

theorem Turns.of_proceeds {w w' : World} (h : Proceeds Pool.Move.IsOpen none w w')
    (hstep : InStep none w) : Turns w w' :=
  ⟨h.acts.widen fun _ _ => trivial, h.inStep hstep⟩

variable {i : Nat} {w w' : World}

/-- While a task runs, it is on its own account. -/
theorem InStep.enter (h : InStep none w) : InStep (some i) w :=
  ⟨h.pool, fun j task _ htask => h.stands j task (by simp) htask, h.known, h.apart⟩

/-- What a task has come to is put down, for the same job or for none. -/
theorem InStep.leave (h : InStep (some i) w) {task : Task} (htask : w.tasks[i]? = some task)
    {r : Running} (hstands : r.Stands w.pool)
    (hjob : r.job? = none ∨ r.job? = task.running.job?) :
    InStep none ((Sim.setTask i fun t => { t with running := r }).run w).2 := by
  rw [Sim.setTask_run htask]
  have hother (j : Nat) (hj : i ≠ j) :
      (w.tasks.set! i { task with running := r })[j]? = w.tasks[j]? := getElem?_set_other hj _
  have hself : (w.tasks.set! i { task with running := r })[i]? =
      some { task with running := r } := getElem?_set_self htask _
  -- A task that is for a job now was for it before.
  have hback (j : Nat) (task' : Task) (id : JobId)
      (htask' : (w.tasks.set! i { task with running := r })[j]? = some task')
      (hid : task'.running.job? = some id) :
      ∃ before, w.tasks[j]? = some before ∧ before.running.job? = some id := by
    by_cases hj : i = j
    · subst hj
      cases hself.symm.trans htask'
      rcases hjob with hnone | hsame
      · cases hnone.symm.trans hid
      · exact ⟨task, htask, hsame.symm.trans hid⟩
    · exact ⟨task', (hother j hj).symm.trans htask', hid⟩
  constructor
  case pool => exact h.pool
  case stands =>
    intro j task' _ htask'
    by_cases hj : i = j
    · subst hj
      cases hself.symm.trans htask'
      exact hstands
    · exact h.stands j task' (by simpa using hj) ((hother j hj).symm.trans htask')
  case known =>
    intro j task' id htask' hid
    obtain ⟨before, hbefore, hid'⟩ := hback j task' id htask' hid
    exact h.known j before id hbefore hid'
  case apart =>
    intro j j' task₁ task₂ id htask₁ htask₂ hid₁ hid₂
    obtain ⟨before₁, hbefore₁, hid₁'⟩ := hback j task₁ id htask₁ hid₁
    obtain ⟨before₂, hbefore₂, hid₂'⟩ := hback j' task₂ id htask₂ hid₂
    exact h.apart j j' before₁ before₂ id hbefore₁ hbefore₂ hid₁' hid₂'

namespace Sim

variable {α β : Type}

/-- Code that leads from one moment between two turns to another. -/
def Keeping (m : Sim α) : Prop := ∀ w, InStep none w → Turns w (m.run w).2

theorem Keeping.of_does {m : Sim α} (h : Does none m) : Keeping m := fun w =>
  .of_proceeds (h w)

theorem Keeping.bind {m : Sim α} {f : α → Sim β} (hm : Keeping m) (hf : ∀ v, Keeping (f v)) :
    Keeping (m >>= f) := by
  intro w h
  have hfirst := hm w h
  rw [run_bind]
  exact hfirst.trans (hf _ _ hfirst.inStep)

/-! ### What a task comes to -/

variable {k : Option Nat}

theorem does_scriptEnded (task : Nat) (token : Option JobId) (joined : Joined) :
    Does k (scriptEnded task token joined) := by
  refine .bind (.optionForM (fun job => ?_) token) fun _ => .getThen fun w => ?_
  · exact does_updatePool (.giveBack job) rfl nofun fun _ => rfl
  · exact Proceeds.set (.beside rfl rfl) (does_wakeAll _)

theorem does_blockingEnded (task : Nat) (job : JobId) (outcome : Outcome JobResult) :
    Does k (blockingEnded task job outcome) := by
  refine .getThen fun w => ?_
  refine Proceeds.set (.beside rfl rfl) (.bind (does_wakeAll _) fun _ => ?_)
  exact does_updatePool (.giveBack job) rfl nofun fun _ => rfl

theorem yields_settle {f : Future .unit} (hf : f.isJobless = true) :
    Yields k (fun r => r.isJobless = true) (settle f) := by
  refine .andThen (jobless_poll pollFuel hf) fun f hf => ?_
  cases f with
  | done o => exact .bind (.modify (fun _ => rfl) fun _ => rfl) fun _ => .pure rfl
  | _ => exact .pure hf

/-- A task that is for no job comes to nothing that is for one. -/
theorem yields_advance (task : Nat) {r : Running} (hr : r.isJobless = true) :
    Yields k (fun r => r.isJobless = true) (advance task r) := by
  cases r with
  | finished => exact .pure rfl
  | unit f =>
      refine .andThen (jobless_poll pollFuel hr) fun f hf => ?_
      cases f <;> exact .pure hf
  | job job f => cases hr
  | blocking job f =>
      refine .andThen (jobless_poll pollFuel hr) fun f hf => ?_
      cases f with
      | done o => exact .bind (does_blockingEnded task job o) fun _ => .pure rfl
      | _ => exact .pure hf
  | script token f =>
      refine .andThen (jobless_poll pollFuel hr) fun f hf => ?_
      cases f with
      | done o => cases o <;> exact .bind (does_scriptEnded task token _) fun _ => .pure rfl
      | _ => exact .pure hf
  | main f =>
      refine .andThen (jobless_poll pollFuel hr) fun f hf => ?_
      cases f with
      | done o =>
          refine .bind (.modify (fun _ => rfl) fun _ => rfl) fun _ => ?_
          exact .bind (does_alarmAfter _) fun alarm => yields_settle rfl
      | _ => exact .pure hf
  | settling f => exact yields_settle hr

/-- Where a task comes to that stood where its job did. -/
structure Advanced (i : Nat) (r : Running) (w : World) (r' : Running) (w' : World) : Prop where
  goes : Proceeds (fun _ => True) (some i) w w'
  stands : r'.Stands w'.pool
  job : r'.job? = none ∨ r'.job? = r.job?

theorem advanced {r : Running} (hstands : r.Stands w.pool)
    (hserves : ∀ id, r.job? = some id → Serves i id w) :
    Advanced i r w ((advance i r).run w).1 ((advance i r).run w).2 := by
  have hjobless (h : r.isJobless = true) :
      Advanced i r w ((advance i r).run w).1 ((advance i r).run w).2 := by
    obtain ⟨hgoes, hr⟩ := yields_advance (k := some i) i h w
    exact ⟨hgoes.widen fun _ _ => trivial, Running.stands_of_isJobless hr _,
      Or.inl (Running.job?_of_isJobless hr)⟩
  cases r with
  | job id f =>
      obtain ⟨hgoes, hcourse⟩ := follows_poll pollFuel hstands (hserves id rfl)
      have hgoes : Proceeds (fun _ => True) (some i) w ((poll pollFuel f).run w).2 :=
        hgoes.widen fun _ _ => trivial
      rw [advance, run_bind]
      generalize (poll pollFuel f).run w = result at hgoes hcourse
      obtain ⟨f', w'⟩ := result
      cases f' with
      | done o => exact ⟨hgoes, rfl, Or.inl rfl⟩
      | _ => exact ⟨hgoes, hcourse, Or.inr rfl⟩
  | _ => exact hjobless hstands

/-- A task that is taken away makes its job's last move. -/
theorem proceeds_cancel {r : Running} (hserves : ∀ id, r.job? = some id → Serves i id w) :
    Proceeds (fun _ => True) (some i) w ((cancel i r).run w).2 := by
  have hplain {m : Sim Unit} (hm : Does (some i) m) :
      Proceeds (fun _ => True) (some i) w (m.run w).2 := (hm w).widen fun _ _ => trivial
  cases r with
  | job id f =>
      have hdropped : Proceeds Pool.Move.IsOpen (some i) w ((drop f).run w).2 := does_drop f w
      have habort : Proceeds (Pool.Move.IsOpenTo id) (some i) ((drop f).run w).2
          ((updatePool (·.abort id)).run ((drop f).run w).2).2 :=
        .own (fun p => (p.abort id, ())) (hdropped.serves (hserves id rfl)) (.abort id) rfl rfl rfl
      exact (hplain (does_drop f)).trans (habort.widen fun _ _ => trivial)
  | script token f =>
      exact hplain (.bind (does_drop f) fun _ => does_scriptEnded _ _ _)
  | _ => exact hplain (.pure ())

/-! ### Turns -/

/-- A task that is taken away is for no job any more. -/
theorem turns_finishTask (h : InStep none w) {r : Running} {task : Task}
    (htask : w.tasks[i]? = some task)
    (hjob : ∀ id, r.job? = some id → task.running.job? = some id) :
    Turns w ((finishTask i r).run w).2 := by
  have hgoes := proceeds_cancel (w := w) (r := r) fun id hid => ⟨task, htask, hjob id hid⟩
  obtain ⟨task', htask', -⟩ := hgoes.kept i task htask
  have hset := setTask_run htask' fun t => { t with running := .finished }
  refine ⟨?_, (hgoes.inStep h.enter).leave htask' rfl (Or.inl rfl)⟩
  rw [finishTask, run_bind, hset]
  exact hgoes.acts

/-- What a task has come to is put down, and taken away if the task was aborted. -/
theorem turns_putDown (h : InStep none w) {task : Task} (htask : w.tasks[i]? = some task)
    {r : Running} (hadvanced : Advanced i task.running w r w') :
    Turns w ((putDown i r).run w').2 := by
  obtain ⟨task', htask', hrunning⟩ := hadvanced.goes.kept i task htask
  have hleft := (hadvanced.goes.inStep h.enter).leave htask' hadvanced.stands
    (hrunning ▸ hadvanced.job)
  have hset := setTask_run htask' fun t => { t with running := r }
  have hput : Turns w ((setTask i fun t => { t with running := r }).run w').2 := by
    refine ⟨?_, hleft⟩
    rw [hset]
    exact hadvanced.goes.acts
  rw [putDown, run_bind, run_bind]
  split
  · have hself : ((setTask i fun t => { t with running := r }).run w').2.tasks[i]? =
        some { task' with running := r } := by
      rw [hset]
      exact getElem?_set_self htask' _
    exact hput.trans (turns_finishTask hleft hself fun id hid => hid)
  · exact hput

theorem turns_ownTurn (h : InStep none w) {task : Task} (htask : w.tasks[i]? = some task) :
    Turns w ((ownTurn i task).run w).2 := by
  rw [ownTurn]
  split
  · exact turns_finishTask h htask fun _ hid => hid
  · have hstands := h.stands i task (by simp) htask
    exact turns_putDown h htask (advanced hstands fun _ hid => ⟨task, htask, hid⟩)

theorem keeping_endTurn (id : Nat) : Keeping (endTurn id) := by
  refine .of_does (.bind .get fun w => ?_)
  refine .bind (.modify (fun _ => rfl) fun _ => rfl) fun _ => ?_
  split
  · exact does_wakeTask id
  · exact .pure ()

/-- A task runs until it waits, ends or is taken away. -/
theorem keeping_runTask (id : Nat) : Keeping (runTask id) := by
  intro w h
  cases htask : w.tasks[id]? with
  | none =>
      rw [runTask_run_none htask]
      exact ⟨.refl _, h⟩
  | some t =>
      have hentered : Aside w (w.entered id t) := by
        have hset : Aside w { w with tasks := w.tasks.set! id { t with isQueued := false } } :=
          ⟨rfl, .set_task htask rfl⟩
        exact hset.trans (.of_eq rfl rfl)
      have henter : Turns w (w.entered id t) := .of_proceeds (.aside hentered) h
      have hself : (w.entered id t).tasks[id]? = some { t with isQueued := false } :=
        getElem?_set_self htask _
      have hown : Turns (w.entered id t)
          ((ownTurn id { t with isQueued := false }).run (w.entered id t)).2 :=
        turns_ownTurn henter.inStep hself
      rw [runTask_run htask, run_bind]
      exact (henter.trans hown).trans (keeping_endTurn id _ hown.inStep)

theorem does_lookAround : Does k lookAround := by
  have hsignals : Does k deliverSignals := by
    refine .getThen fun w => ?_
    split
    · exact Proceeds.set (.beside rfl rfl) (does_wakeAll _)
    · exact .refl w
  refine .bind hsignals fun _ => .getThen fun w => ?_
  exact Proceeds.set (.beside rfl rfl) (.forM does_wakeTask _)

/-- What runs next, if anything does. -/
theorem keeping_runNext : Keeping runNext := by
  intro w h
  have hbetween {w' : World} (hproceeds : Proceeds Pool.Move.IsOpen none w w') : Turns w w' :=
    .of_proceeds hproceeds h
  have hnext := runsNext w
  generalize w.nextTurn? = turn, (runNext.run w).2 = w' at hnext ⊢
  cases hnext with
  | turn id ready blockingQueue streak blockingActive =>
      have hchosen : Turns w (w.choosing ready blockingQueue streak blockingActive) :=
        hbetween (.beside rfl rfl)
      exact hchosen.trans (keeping_runTask id _ hchosen.inStep)
  | look => exact hbetween (does_lookAround w)
  | rest => exact hbetween (.beside rfl rfl)

theorem does_moveClock : Does k moveClock := by
  refine .getThen fun w => ?_
  split
  · exact Proceeds.set (.beside rfl rfl) (.bind (does_wakeAll _) fun _ => .pure _)
  · exact .refl w

end Sim

end Simulation

namespace Scenario

variable {w w' : World}

theorem does_handIn (step : Step) : Sim.Does none (handIn step) := by
  have hspawned : Sim.Does none (Sim.spawn (.main (.begin (.step {} step)))) :=
    Sim.does_spawn rfl
  refine .bind (.modify (fun _ => rfl) fun _ => rfl) fun _ => ?_
  exact .bind hspawned fun _ => .pure _

/-- Turn by turn, a world only goes on, and its tasks keep step. -/
theorem Leads.turns (h : Leads w w') (hstep : InStep none w) : Turns w w' := by
  induction h with
  | refl => exact ⟨.refl _, hstep⟩
  | handIn step _ ih => exact ih.trans (Sim.Keeping.of_does (does_handIn step) _ ih.inStep)
  | next _ ih => exact ih.trans (Sim.keeping_runNext _ ih.inStep)
  | clock _ ih => exact ih.trans (Sim.Keeping.of_does Sim.does_moveClock _ ih.inStep)

/-! ### Before the first step -/

/-- The system before anything is set up. -/
def blank (s : Scenario) : World :=
  { config := s.config
    pool := Pool.new s.config
    preset := presetServices s.preset
    tasks := #[{ running := .finished }] }

/-- A moment of the set-up. -/
structure SetUp (s : Scenario) (w : World) : Prop where
  inStep : InStep none w
  pool : ∃ moves, w.pool = (Pool.new s.config).run moves

variable {s : Scenario}

/-- The only task is over, and there are no jobs. -/
theorem setUp_blank : SetUp s s.blank := by
  have hfinished (j : Nat) (task : Simulation.Task) (htask : s.blank.tasks[j]? = some task) :
      task.running = .finished := by
    have htask : task = { running := .finished } := by
      simpa [blank] using Array.mem_of_getElem? htask
    rw [htask]
  refine ⟨?_, [], rfl⟩
  constructor
  case pool => exact ⟨s.config, [], rfl⟩
  case stands =>
    intro j task _ htask
    rw [hfinished j task htask]
    rfl
  case known =>
    intro j task id htask hid
    rw [hfinished j task htask] at hid
    cases hid
  case apart =>
    intro j j' task task' id htask _ hid
    rw [hfinished j task htask] at hid
    cases hid

theorem SetUp.does {α : Type} {m : Sim α} (h : SetUp s w) (hm : Sim.Does none m) :
    SetUp s (m.run w).2 := by
  obtain ⟨moves, hpool⟩ := h.pool
  obtain ⟨more, hmore⟩ := (hm w).acts.pool
  refine ⟨(hm w).inStep h.inStep, moves ++ more, ?_⟩
  rw [Pool.run_append, ← hpool]
  exact hmore

/-- The jobs and the tasks know nothing of the workspaces. -/
theorem SetUp.workspaces (h : SetUp s w) (workspaces : Array Hosted) :
    SetUp s { w with workspaces } :=
  ⟨h.inStep.of_kept ⟨[], rfl⟩ (fun _ h => h) (fun _ _ _ _ _ _ _ h => h) (.of_eq rfl), h.pool⟩

theorem setUp_start : SetUp s s.start := by
  have hbroker := (setUp_blank (s := s)).does (Sim.does_newBroker s.config)
  refine SetUp.workspaces (hbroker.does (.optionMapM (fun p => ?_) s.parser)) _
  exact .bind (Sim.does_plugin p.2) fun _ => .pure _

/-- The workspace that there is at the start is empty. -/
theorem workspace_start {index : Nat} {hosted : Hosted}
    (hfound : s.start.workspaces[index]? = some hosted) : hosted.workspace = {} := by
  have hone : ∃ broker parser, s.start.workspaces = #[{ broker, parser }] := ⟨_, _, rfl⟩
  obtain ⟨broker, parser, hone⟩ := hone
  rw [hone] at hfound
  have hmem : hosted = { broker, parser } := by simpa using Array.mem_of_getElem? hfound
  rw [hmem]

/-! ### Every world -/

/-- The pool of every world has come to where it is by moves. -/
theorem Leads.pool (h : Leads s.start w) : ∃ moves, w.pool = (Pool.new s.config).run moves := by
  obtain ⟨first, hfirst⟩ := (setUp_start (s := s)).pool
  obtain ⟨moves, hmoves⟩ := (h.turns setUp_start.inStep).acts.pool
  refine ⟨first ++ moves, ?_⟩
  rw [Pool.run_append, ← hfirst]
  exact hmoves

/-- As a world goes on, its pool goes on by moves. -/
theorem Leads.pool_onward (h : Leads s.start w) (h' : Leads w w') :
    ∃ moves, w'.pool = w.pool.run moves :=
  (h'.turns (h.turns setUp_start.inStep).inStep).acts.pool

/-- Every workspace of every world has come to where it is by requests. -/
theorem Leads.workspace (h : Leads s.start w) {index : Nat} {hosted : Hosted}
    (hfound : w.workspaces[index]? = some hosted) :
    ∃ requests, hosted.workspace = Workspace.run {} requests := by
  have hacts := (h.turns setUp_start.inStep).acts
  cases hbefore : s.start.workspaces[index]? with
  | none => exact hacts.newWorkspace hbefore hfound
  | some first =>
      obtain ⟨requests, hrun⟩ := hacts.workspace hbefore
      cases hrun.symm.trans hfound
      exact ⟨requests, by rw [workspace_start hbefore]⟩

/-- As a world goes on, its workspaces go on by requests. -/
theorem Leads.workspace_onward (h : Leads s.start w) (h' : Leads w w')
    {index : Nat} {hosted : Hosted} (hfound : w.workspaces[index]? = some hosted) :
    ∃ requests, w'.workspaces[index]? =
      some { hosted with workspace := hosted.workspace.run requests } :=
  (h'.turns (h.turns setUp_start.inStep).inStep).acts.workspace hfound

/-- The living are the jobs that run and those that were cut short. -/
theorem Leads.accounts (h : Leads s.start w) : ∃ cut, w.pool.Accounts cut := by
  obtain ⟨moves, hmoves⟩ := h.pool
  rw [hmoves]
  exact ⟨_, .run s.config moves⟩

/-- The tree, the contents and the views of a workspace fit together. -/
theorem Leads.coherent (h : Leads s.start w) {index : Nat} {hosted : Hosted}
    (hfound : w.workspaces[index]? = some hosted) : hosted.workspace.Coherent := by
  obtain ⟨requests, hrequests⟩ := h.workspace hfound
  rw [hrequests]
  exact Workspace.coherent_empty.run requests

/-- As a world goes on, a file holds what it held or something newer. -/
theorem Leads.precedes (h : Leads s.start w) (h' : Leads w w') {index : Nat} {hosted : Hosted}
    (hfound : w.workspaces[index]? = some hosted) {id : EntryId} {c : Content}
    (hc : hosted.workspace.contents.lookup id = some c) :
    ∃ hosted' later, w'.workspaces[index]? = some hosted' ∧
      hosted'.workspace.contents.lookup id = some later ∧ c.Precedes later := by
  obtain ⟨requests, hrun⟩ := h.workspace_onward h' hfound
  obtain ⟨later, hlater, hprecedes⟩ := (h.coherent hfound).precedes_run requests hc
  exact ⟨_, later, hrun, hlater, hprecedes⟩

end Scenario

end EventHub
