import EventHub.Proofs.Replay.Basic
import EventHub.Proofs.Simulation.Turns

/-!
Calm actions: what the simulation does apart from its brokers. A computation is tame
if it is calm to get at and holds nothing.
-/

namespace EventHub.Simulation

open EventHub.Script

variable {k : Nat} {w : World}

/-- A task is changed without what it runs. -/
theorem Calm.set_task {j : Nat} {task task' : Task} (htask : w.tasks[j]? = some task)
    (hrunning : task'.running = task.running) :
    Calm k w { w with tasks := w.tasks.set! j task' } where
  current := rfl
  serial := Nat.le_refl _
  brokers := Or.inl rfl
  size := by simp
  tasks := by
    intro i task'' htask''
    left
    by_cases hi : i = j
    · subst hi
      rw [getElem?_set_self htask] at htask''
      cases htask''
      exact ⟨task, htask, hrunning⟩
    · rw [getElem?_set_other (Ne.symm hi)] at htask''
      exact ⟨task'', htask'', rfl⟩

/-- A task is added that holds nothing. -/
theorem Calm.push_task {task : Task} (hplain : task.running.Plain k) :
    Calm k w { w with tasks := w.tasks.push task } where
  current := rfl
  serial := Nat.le_refl _
  brokers := Or.inl rfl
  size := by simp
  tasks := by
    intro i task'' htask''
    rw [Array.getElem?_push] at htask''
    split at htask''
    · rename_i hi
      cases htask''
      exact Or.inr ⟨Array.getElem?_eq_none_iff.mpr (Nat.le_of_eq hi.symm), hplain⟩
    · exact Or.inl ⟨task'', htask'', rfl⟩

instance (k : Nat) : IsPreorder World (Calm k) where
  refl := .refl
  trans _ _ _ := .trans

namespace Sim

variable {α β : Type} {a b : Shape}

/-- The action is calm, whatever the world. -/
def Calms (k : Nat) (m : Sim α) : Prop := ∀ w, Calm k w (m.run w).2

namespace Calms

theorem pure (v : α) : Calms k (Pure.pure v : Sim α) := Ensures.pure v

theorem bind {m : Sim α} {f : α → Sim β} (hm : Calms k m) (hf : ∀ v, Calms k (f v)) :
    Calms k (m >>= f) := Ensures.bind hm hf

theorem map {m : Sim α} (f : α → β) (hm : Calms k m) : Calms k (f <$> m) := hm

theorem get : Calms k (get : Sim World) := fun w => .refl w

/-- The world is read first. -/
theorem getThen {f : World → Sim β} (hf : ∀ w, Calm k w ((f w).run w).2) :
    Calms k (MonadState.get >>= f) := hf

/-- What changes neither brokers nor tasks. -/
theorem modify {f : World → World} (hcurrent : ∀ w, (f w).current = w.current)
    (hserial : ∀ w, (f w).serial = w.serial) (hbrokers : ∀ w, (f w).brokers = w.brokers)
    (htasks : ∀ w, (f w).tasks = w.tasks) : Calms k (modify f) := fun w =>
  .of_eq (hcurrent w) (Nat.le_of_eq (hserial w).symm) (hbrokers w) (htasks w)

theorem forM {f : α → Sim Unit} (hf : ∀ v, Calms k (f v)) (list : List α) :
    Calms k (list.forM f) := Ensures.forM hf list

theorem forIn {f : α → β → Sim (ForInStep β)} (hf : ∀ v b, Calms k (f v b)) (list : List α)
    (b : β) : Calms k (forIn list b f) := Ensures.forIn hf list b

theorem optionForM {f : α → Sim Unit} (hf : ∀ v, Calms k (f v)) (o : Option α) :
    Calms k (o.forM f) := Ensures.optionForM hf o

theorem mapM {f : α → Sim β} (hf : ∀ v, Calms k (f v)) (o : Option α) : Calms k (o.mapM f) :=
  Ensures.optionMapM hf o

end Calms

/-- A world is replaced by one that differs in nothing of interest. -/
theorem Calm.set {w' : World} {m : Sim β} (hset : Calm k w w') (hm : Calms k m) :
    Calm k w ((MonadState.set w' >>= fun _ => m).run w).2 := hset.trans (hm w')

theorem calms_ticket : Calms k ticket := fun _ => .of_eq rfl (Nat.le_succ _) rfl rfl

theorem calms_wakeTask (id : Nat) : Calms k (wakeTask id) := by
  intro w
  rw [wakeTask, run_modify]
  split
  · exact .refl w
  · rename_i task htask
    split
    · exact .refl w
    · exact .set_task htask rfl
    · split
      · exact .of_eq rfl (Nat.le_refl _) rfl rfl
      · split
        · exact .refl w
        · have hset : Calm k w { w with
              tasks := w.tasks.set! id { task with isQueued := true } } := .set_task htask rfl
          exact hset.trans (.of_eq rfl (Nat.le_refl _) rfl rfl)

theorem calms_wakeAll (ts : List Ticket) : Calms k (wakeAll ts) :=
  .forM (f := wake) (fun t => calms_wakeTask t.task) ts

theorem calms_write (r : Record) : Calms k (write r) := fun _ =>
  .of_eq rfl (Nat.le_refl _) rfl rfl

theorem calms_writeAll (rs : List Record) : Calms k (writeAll rs) := fun _ =>
  .of_eq rfl (Nat.le_refl _) rfl rfl

theorem calms_see (s : Seen) : Calms k (see s) := fun _ => .of_eq rfl (Nat.le_refl _) rfl rfl

theorem calms_deed (who : String) (d : Deed) : Calms k (deed who d) := fun _ =>
  .of_eq rfl (Nat.le_refl _) rfl rfl

theorem calms_isSpent : Calms k isSpent := fun w => .refl w

theorem calms_spend (things : Nat) : Calms k (spend things) := fun _ =>
  .of_eq rfl (Nat.le_refl _) rfl rfl

theorem calms_defer : Calms k defer := by
  intro w
  simp only [defer, run_bind]
  split
  · exact calms_wakeTask _ w
  · split
    · exact .refl w
    · exact .of_eq rfl (Nat.le_refl _) rfl rfl

theorem calms_spawn {running : Running} (hplain : running.Plain k) : Calms k (spawn running) := by
  intro w
  have hpush : Calm k w { w with tasks := w.tasks.push { running, isQueued := true } } :=
    .push_task hplain
  exact hpush.trans (.of_eq rfl (Nat.le_refl _) rfl rfl)

theorem calms_onPool (act : Pool → Pool × α) : Calms k (onPool act) := by
  intro w
  have hwritten : Calm k w ((writeAll (act w.pool).1.outbox.records).run
      { w with pool := { (act w.pool).1 with outbox := {} } }).2 :=
    .of_eq rfl (Nat.le_refl _) rfl rfl
  exact hwritten.trans (calms_wakeAll _ _)

theorem calms_updatePool (act : Pool → Pool) : Calms k (updatePool act) := calms_onPool _

theorem calms_workspace (index : Nat) : Calms k (workspace index) := by
  intro w
  simp only [workspace, run_bind]
  split <;> exact .refl w

theorem calms_setWorkspace (index : Nat) (state : Workspace) :
    Calms k (setWorkspace index state) := by
  intro w
  rw [setWorkspace, run_modify]
  split
  · exact .refl w
  · exact .of_eq rfl (Nat.le_refl _) rfl rfl

theorem calms_event (notice : Notice) : Calms k (event notice) := fun _ =>
  .of_eq rfl (Nat.le_refl _) rfl rfl

theorem calms_stamp : Calms k stamp := fun _ => .of_eq rfl (Nat.le_refl _) rfl rfl

theorem calms_slot : Calms k slot := fun _ => .of_eq rfl (Nat.le_refl _) rfl rfl

theorem calms_countCall (slot : Nat) (times : Option Nat) : Calms k (countCall slot times) :=
  fun _ => .of_eq rfl (Nat.le_refl _) rfl rfl

theorem calms_plugin (spec : PluginSpec Step) : Calms k (plugin spec) := fun _ =>
  .of_eq rfl (Nat.le_refl _) rfl rfl

theorem calms_alarmAfter (d : Duration) : Calms k (alarmAfter d) := fun _ =>
  .of_eq rfl (Nat.le_succ _) rfl rfl

theorem calms_isDue (a : Alarm) : Calms k (isDue a) := by
  intro w
  simp only [isDue, run_bind]
  split
  · exact .refl w
  · split
    · exact .refl w
    · exact .of_eq rfl (Nat.le_refl _) rfl rfl

theorem calms_unset (a : Alarm) : Calms k (unset a) := fun _ =>
  .of_eq rfl (Nat.le_refl _) rfl rfl

theorem calms_requestShutdown : Calms k requestShutdown := by
  intro w
  have hset : Calm k w { w with trigger := w.trigger.pull.1 } :=
    .of_eq rfl (Nat.le_refl _) rfl rfl
  exact hset.trans (calms_wakeAll _ _)

theorem calms_raise (name : String) : Calms k (raise name) := fun _ =>
  .of_eq rfl (Nat.le_refl _) rfl rfl

theorem calms_openGate (name : String) : Calms k (openGate name) := by
  intro w
  have hset (gates : List String) (waiters : List (String × Ticket)) :
      Calm k w { w with openGates := gates, gateWaiters := waiters } :=
    .of_eq rfl (Nat.le_refl _) rfl rfl
  exact (hset _ _).trans (calms_wakeAll _ _)

theorem calms_abortTask (id : Nat) : Calms k (abortTask id) := by
  intro w
  simp only [abortTask, run_bind]
  split
  · exact .refl w
  · rename_i task htask
    split
    · exact .refl w
    · have hset : Calm k w { w with tasks := w.tasks.set! id { task with isAborted := true } } :=
        .set_task htask rfl
      exact hset.trans (calms_wakeTask id _)

/-- Acting on another broker is calm. -/
theorem calms_onBroker {j : Nat} (hne : j ≠ k) (act : Broker Action → Broker Action × α) :
    Calms k (onBroker j act) := by
  intro w
  simp only [onBroker, run_bind]
  split
  · exact .refl w
  · rename_i broker _
    have hset : Calm k w { w with
        brokers := w.brokers.set! j { (act broker).1 with outbox := {} } } := by
      refine ⟨rfl, Nat.le_refl _, Or.inl ?_, Nat.le_refl _, ?_⟩
      · exact getElem?_set_other hne _
      · exact fun i task htask => Or.inl ⟨task, htask, rfl⟩
    exact (hset.trans (calms_writeAll _ _)).trans (calms_wakeAll _ _)

theorem calms_keepViewLabel (label : Option String) (view : Option View) :
    Calms k (keepViewLabel label view) := by
  cases view with
  | none => exact .pure ()
  | some v => exact fun w => .of_eq rfl (Nat.le_refl _) rfl rfl

theorem calms_newViewCall (file : EntryId) (viewType : String) :
    Calms k (newViewCall file viewType) := fun _ =>
  .of_eq rfl (Nat.le_refl _) rfl rfl

theorem calms_handOverView (call : Nat) : Calms k (handOverView call) := fun _ =>
  .of_eq rfl (Nat.le_refl _) rfl rfl

theorem calms_present (sink : Sink) (r : Script.Result) : Calms k (present sink r) := by
  cases sink with
  | nowhere => exact .pure ()
  | listener tag => exact calms_see _
  | background who => exact calms_deed _ _

theorem calms_submit (name : String) (body : JobBody) : Calms k (submit name body) := by
  refine .bind (calms_onPool _) fun id => ?_
  exact .bind (calms_spawn fun x => ⟨by simp [Begin.discardsAt?], rfl⟩) fun _ => .pure _

theorem calms_scheduleMappings (file : Entry) (content : Bytes) :
    Calms k (scheduleMappings file content) := by
  refine .bind .get fun w => ?_
  refine .bind (.forIn (fun f _ => ?_) _ _) fun _ => .pure _
  exact .bind (calms_write _) fun _ => .bind (calms_submit _ _) fun _ => .pure _

theorem calms_spawnBlocking (job : JobId) (work : Work) : Calms k (spawnBlocking job work) := by
  intro w
  have hplain : (Running.blocking job (.begin (.work job work))).Plain k := fun x =>
    ⟨by simp [Begin.discardsAt?], rfl⟩
  let borrowed := ((updatePool (·.borrowToken job)).run w).2
  have hborrowed : Calm k w borrowed := calms_updatePool _ w
  have hpushed : Calm k borrowed { borrowed with
      tasks := borrowed.tasks.push
        { running := .blocking job (.begin (.work job work)), isQueued := true } } :=
    .push_task hplain
  exact (hborrowed.trans hpushed).trans (.of_eq rfl (Nat.le_refl _) rfl rfl)

theorem calms_importClass (ws : Nat) (entry : Entry) (content : Bytes) :
    Calms k (importClass ws entry content) := by
  refine .bind .get fun w => ?_
  split
  · exact calms_write _
  · exact .bind (calms_write _) fun _ => .bind (calms_submit _ _) fun _ => .pure _

/-- A slot to discard at another broker is a matter of that one. -/
theorem calms_discardLater {j : Nat} (hne : j ≠ k) (orphan : Option ServiceId) :
    Calms k (discardLater j orphan) := by
  cases orphan with
  | none => exact .pure ()
  | some id =>
      refine .bind (calms_spawn fun x => ?_) fun _ => .pure _
      exact Or.inl ⟨by simpa [Begin.discardsAt?] using hne, rfl⟩

/-- A new broker begins as brokers do. -/
theorem calms_newBroker (config : Config) : Calms k (newBroker config) := by
  intro w
  let worker : Ticket := { task := w.tasks.size, serial := w.serial }
  have hmade : Calm k w { w with
      serial := w.serial + 1
      brokers := w.brokers.push (Broker.new config worker) } := by
    refine ⟨rfl, Nat.le_succ _, ?_, Nat.le_refl _, fun i task htask => Or.inl ⟨task, htask, rfl⟩⟩
    simp only [Array.getElem?_push]
    split
    · rename_i hk
      exact Or.inr ⟨Array.getElem?_eq_none_iff.mpr (Nat.le_of_eq hk.symm), config, worker, rfl⟩
    · exact Or.inl rfl
  have hplain : (Running.unit (.begin (.registry w.brokers.size))).Plain k := fun x =>
    Or.inl ⟨by simp [Begin.discardsAt?], rfl⟩
  exact hmade.trans (calms_spawn hplain _)

/-- From this world it is calm to get at the computation, which holds nothing. -/
def TameAt (k : Nat) (w : World) (m : Sim (Future a)) : Prop :=
  Calm k w (m.run w).2 ∧ (m.run w).1.Plain k

/-- A computation that is calm to get at and holds nothing, whatever the world. -/
def Tame (k : Nat) (m : Sim (Future a)) : Prop := ∀ w, TameAt k w m

/-- A world is replaced by one that differs in nothing of interest. -/
theorem TameAt.set {w' : World} {m : Sim (Future a)} (hset : Calm k w w') (hm : Tame k m) :
    TameAt k w (MonadState.set w' >>= fun _ => m) :=
  ⟨hset.trans (hm w').1, (hm w').2⟩

namespace Tame

theorem pure {f : Future a} (h : f.Plain k) : Tame k (Pure.pure f : Sim (Future a)) :=
  fun w => ⟨.refl w, h⟩

theorem bind {m : Sim α} {f : α → Sim (Future a)} (hm : Calms k m) (hf : ∀ v, Tame k (f v)) :
    Tame k (m >>= f) := by
  intro w
  obtain ⟨hcalm, hplain⟩ := hf (m.run w).1 (m.run w).2
  rw [TameAt, run_bind]
  exact ⟨(hm w).trans hcalm, hplain⟩

/-- The world is read first. -/
theorem get {f : World → Sim (Future a)} (hf : ∀ w, TameAt k w (f w)) :
    Tame k (MonadState.get >>= f) := hf

end Tame

end Sim

namespace Future.Plain

variable {a b : Shape}

theorem value (v : a.Value) : (Future.value v).Plain k := fun _ => rfl

theorem panic (payload : Payload) : (Future.panic payload : Future a).Plain k := fun _ => rfl

theorem begin {b : Begin a} (h : b.discardsAt? = none) : (Future.begin b).Plain k := fun _ =>
  ⟨by simp [h], rfl⟩

theorem bind {inner : Future a} {g : Frame a b} (hinner : inner.Plain k)
    (hframe : ∀ x, g.Holds k x []) : (Future.bind inner g).Plain k := fun x =>
  ⟨[], [], rfl, hinner x, hframe x⟩

theorem map {inner : Future a} (hinner : inner.Plain k) (f : a.Value → b.Value) :
    (inner.map f).Plain k := bind hinner fun _ => rfl

end Future.Plain

namespace Sim

theorem tame_taking {a : Shape} (things : Nat) {next : Begin a} (h : next.discardsAt? = none) :
    Tame k (taking things next) := by
  refine .bind calms_ticket fun t => .pure (.bind (fun _ => rfl) fun _ => ?_)
  exact ⟨by simp [h], rfl⟩

end Sim

end EventHub.Simulation
