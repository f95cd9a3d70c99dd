import EventHub.Proofs.Stores.Stands
import EventHub.Simulation.Steps

/-!
What the simulation's actions do to the stores. Each of them is one act, or none, and
what is made of them is acts one after another.
-/

namespace EventHub.Simulation.Sim

open EventHub.Script

variable {α β : Type} {a b : Shape} {i : Option Nat} {w : World}

/-- The code makes no job's own move. -/
def Does (i : Option Nat) (m : Sim α) : Prop := ∀ w, Proceeds Pool.Move.IsOpen i w (m.run w).2

/-- From this world, the code makes no job's own move, and what it returns is of this
kind. -/
def YieldsAt (i : Option Nat) (w : World) (Q : α → Prop) (m : Sim α) : Prop :=
  Proceeds Pool.Move.IsOpen i w (m.run w).2 ∧ Q (m.run w).1

def Yields (i : Option Nat) (Q : α → Prop) (m : Sim α) : Prop := ∀ w, YieldsAt i w Q m

/-- What the code goes on with is no part of a job's course. -/
def Jobless (i : Option Nat) (m : Sim (Future a)) : Prop := Yields i (fun f => f.isJobless = true) m

namespace Does

theorem pure (v : α) : Does i (Pure.pure v : Sim α) := Ensures.pure v

theorem bind {m : Sim α} {f : α → Sim β} (hm : Does i m) (hf : ∀ v, Does i (f v)) :
    Does i (m >>= f) := Ensures.bind hm hf

theorem map {m : Sim α} (f : α → β) (hm : Does i m) : Does i (f <$> m) := hm

theorem get : Does i (get : Sim World) := fun w => .refl w

/-- The world is read first. -/
theorem getThen {f : World → Sim β} (hf : ∀ w, Proceeds Pool.Move.IsOpen i w ((f w).run w).2) :
    Does i (MonadState.get >>= f) := hf

/-- One act on the stores. -/
theorem act {f : World → World} (hact : ∀ w, Act Pool.Move.IsOpen w.stores (f w).stores)
    (htasks : ∀ w, (f w).tasks = w.tasks) (hjobs : ∀ w, (f w).pool.jobs = w.pool.jobs) :
    Does i (modify f : Sim Unit) := fun w =>
  .act (hact w) (htasks w) (hjobs w)

/-- What changes neither the stores nor the tasks. -/
theorem modify {f : World → World} (hstores : ∀ w, (f w).stores = w.stores)
    (htasks : ∀ w, (f w).tasks = w.tasks) : Does i (modify f) := fun w =>
  .beside (hstores w) (htasks w)

theorem forM {f : α → Sim Unit} (hf : ∀ v, Does i (f v)) (list : List α) :
    Does i (list.forM f) := Ensures.forM hf list

theorem forIn {f : α → β → Sim (ForInStep β)} (hf : ∀ v b, Does i (f v b)) (list : List α)
    (b : β) : Does i (forIn list b f) := Ensures.forIn hf list b

theorem optionForM {f : α → Sim Unit} (hf : ∀ v, Does i (f v)) (o : Option α) :
    Does i (o.forM f) := Ensures.optionForM hf o

theorem optionMapM {f : α → Sim β} (hf : ∀ v, Does i (f v)) (o : Option α) :
    Does i (o.mapM f) := Ensures.optionMapM hf o

end Does

namespace Yields

variable {P : α → Prop} {Q : β → Prop}

theorem pure {v : α} (h : P v) : Yields i P (Pure.pure v) := fun w => ⟨.refl w, h⟩

theorem bind {m : Sim α} {f : α → Sim β} (hm : Does i m) (hf : ∀ v, Yields i Q (f v)) :
    Yields i Q (m >>= f) := by
  intro w
  obtain ⟨hgoes, hq⟩ := hf (m.run w).1 (m.run w).2
  exact ⟨(hm w).trans hgoes, hq⟩

/-- What the first part returned is used by the second. -/
theorem andThen {m : Sim α} {f : α → Sim β} (hm : Yields i P m)
    (hf : ∀ v, P v → Yields i Q (f v)) : Yields i Q (m >>= f) := by
  intro w
  obtain ⟨hgoes, hp⟩ := hm w
  obtain ⟨hgoes', hq⟩ := hf _ hp (m.run w).2
  exact ⟨hgoes.trans hgoes', hq⟩

/-- The world is read first. -/
theorem get {f : World → Sim β} (hf : ∀ w, YieldsAt i w Q (f w)) :
    Yields i Q (MonadState.get >>= f) := hf

theorem does {m : Sim α} (h : Yields i P m) : Does i m := fun w => (h w).1

end Yields

/-- A world is replaced by one that code could have come to. -/
theorem YieldsAt.set {w' : World} {Q : β → Prop} {m : Sim β}
    (hset : Proceeds Pool.Move.IsOpen i w w') (hm : Yields i Q m) :
    YieldsAt i w Q (MonadState.set w' >>= fun _ => m) :=
  ⟨hset.trans (hm w').1, (hm w').2⟩

/-- A world is replaced by one that code could have come to. -/
theorem Proceeds.set {w' : World} {m : Sim β} (hset : Proceeds Pool.Move.IsOpen i w w')
    (hm : Does i m) :
    Proceeds Pool.Move.IsOpen i w ((MonadState.set w' >>= fun _ => m).run w).2 :=
  hset.trans (hm w')

/-! ### Actions that are no act -/

theorem does_ticket : Does i ticket := fun _ => .beside rfl rfl

theorem aside_wakeTask (id : Nat) (w : World) : Aside w ((wakeTask id).run w).2 := by
  rw [wakeTask, run_modify]
  split
  · exact .refl w
  · rename_i task htask
    split
    · exact .refl w
    · exact ⟨rfl, .set_task htask rfl⟩
    · split
      · exact .of_eq rfl rfl
      · split
        · exact .refl w
        · exact ⟨rfl, .set_task htask rfl⟩

theorem aside_wakeAll (ts : List Ticket) (w : World) : Aside w ((wakeAll ts).run w).2 := by
  induction ts generalizing w with
  | nil => exact .refl w
  | cons t rest ih => exact (aside_wakeTask t.task w).trans (ih _)

theorem does_wakeTask (id : Nat) : Does i (wakeTask id) := fun w => .aside (aside_wakeTask id w)

theorem does_wakeAll (ts : List Ticket) : Does i (wakeAll ts) := fun w =>
  .aside (aside_wakeAll ts w)

theorem does_write (r : Record) : Does i (write r) := fun _ => .beside rfl rfl

theorem does_writeAll (rs : List Record) : Does i (writeAll rs) := fun _ => .beside rfl rfl

theorem does_see (s : Seen) : Does i (see s) := fun _ => .beside rfl rfl

theorem does_deed (who : String) (d : Deed) : Does i (deed who d) := fun _ => .beside rfl rfl

theorem does_isSpent : Does i isSpent := fun w => .refl w

theorem does_spend (things : Nat) : Does i (spend things) := fun _ => .beside rfl rfl

theorem does_defer : Does i defer := by
  intro w
  simp only [defer, run_bind]
  split
  · exact does_wakeTask _ w
  · split
    · exact .refl w
    · exact .beside rfl rfl

theorem does_onBroker (index : Nat) (act : Broker Action → Broker Action × α) :
    Does i (onBroker index act) := by
  intro w
  simp only [onBroker, run_bind]
  split
  · exact .refl w
  · rename_i broker _
    have hset : Proceeds Pool.Move.IsOpen i w { w with
        brokers := w.brokers.set! index { (act broker).1 with outbox := {} } } := .beside rfl rfl
    exact (hset.trans (does_writeAll _ _)).trans (does_wakeAll _ _)

theorem does_slot : Does i slot := fun _ => .beside rfl rfl

theorem does_countCall (slot : Nat) (times : Option Nat) : Does i (countCall slot times) :=
  fun _ => .beside rfl rfl

theorem does_plugin (spec : PluginSpec Step) : Does i (plugin spec) := fun _ => .beside rfl rfl

theorem does_listenerOf (spec : ListenerSpec Step) : Does i (listenerOf spec) :=
  .bind does_slot fun _ => .pure _

theorem does_alarmAfter (d : Duration) : Does i (alarmAfter d) := fun _ => .beside rfl rfl

theorem does_isDue (a : Alarm) : Does i (isDue a) := by
  intro w
  simp only [isDue, run_bind]
  split
  · exact .refl w
  · split
    · exact .refl w
    · exact .beside rfl rfl

theorem does_unset (a : Alarm) : Does i (unset a) := fun _ => .beside rfl rfl

theorem does_raise (name : String) : Does i (raise name) := fun _ => .beside rfl rfl

theorem does_openGate (name : String) : Does i (openGate name) := by
  intro w
  have hset (gates : List String) (waiters : List (String × Ticket)) :
      Proceeds Pool.Move.IsOpen i w { w with openGates := gates, gateWaiters := waiters } :=
    .beside rfl rfl
  exact (hset _ _).trans (does_wakeAll _ _)

theorem does_abortTask (id : Nat) : Does i (abortTask id) := by
  intro w
  simp only [abortTask, run_bind]
  split
  · exact .refl w
  · rename_i task htask
    split
    · exact .refl w
    · have hset : Proceeds Pool.Move.IsOpen i w
          { w with tasks := w.tasks.set! id { task with isAborted := true } } :=
        .aside ⟨rfl, .set_task htask rfl⟩
      exact hset.trans (does_wakeTask id _)

theorem does_keepViewLabel (label : Option String) (view : Option View) :
    Does i (keepViewLabel label view) := by
  cases view with
  | none => exact .pure ()
  | some v => exact fun w => .beside rfl rfl

theorem does_workspace (index : Nat) : Does i (workspace index) := by
  intro w
  rw [(workspace_run index w).1]
  exact .refl w

theorem does_needs (s : Step) : Does i (needs s) := by
  intro w
  rw [needs.eq_def]
  split <;> exact .refl w

/-! ### Actions that are one act -/

theorem does_event (notice : Notice) : Does i (event notice) := fun _ => .act .event rfl rfl

theorem does_stamp : Does i stamp := fun _ => .act .stamp rfl rfl

theorem does_requestShutdown : Does i requestShutdown := by
  intro w
  have hpull : Proceeds Pool.Move.IsOpen i w { w with trigger := w.trigger.pull.1 } :=
    .act .pull rfl rfl
  exact hpull.trans (does_wakeAll _ _)

/-- What the pool is asked, it answers; then those that this concerns are woken. -/
theorem onPool_run (act : Pool → Pool × α) (w : World) :
    ((onPool act).run w).1 = (act w.pool).2 ∧
      Aside { w with pool := { (act w.pool).1 with outbox := {} } } ((onPool act).run w).2 := by
  refine ⟨rfl, ?_⟩
  have hwritten : Aside { w with pool := { (act w.pool).1 with outbox := {} } }
      ((writeAll (act w.pool).1.outbox.records).run
        { w with pool := { (act w.pool).1 with outbox := {} } }).2 := .of_eq rfl rfl
  exact hwritten.trans (aside_wakeAll _ _)

/-- A move of the pool that is no job's own, and submits none. -/
theorem does_onPool {act : Pool → Pool × α} (m : Pool.Move) (hopen : m.IsOpen)
    (hnot : ∀ name, m ≠ .submit name) (hact : ∀ p, (act p).1 = p.act m) :
    Does i (onPool act) := by
  intro w
  have hpossible := hopen.isPossible w.pool
  have hstep : w.pool.step m = { (act w.pool).1 with outbox := {} } := by
    rw [Pool.step, if_pos hpossible, hact]
  have hmove := Act.pool (s := w.stores) m hopen hpossible
  rw [show w.stores.pool.step m = _ from hstep] at hmove
  have hjobs : (act w.pool).1.jobs = w.pool.jobs := by
    rw [hact]
    exact (Pool.sameJobs_act w.pool hopen hnot).jobs
  have hmoved : Proceeds Pool.Move.IsOpen i w
      { w with pool := { (act w.pool).1 with outbox := {} } } := .act hmove rfl hjobs
  exact hmoved.trans (.aside (onPool_run act w).2)

theorem does_updatePool {act : Pool → Pool} (m : Pool.Move) (hopen : m.IsOpen)
    (hnot : ∀ name, m ≠ .submit name) (hact : ∀ p, act p = p.act m) :
    Does i (updatePool act) :=
  does_onPool m hopen hnot hact

/-- What a workspace is asked, with the lock held, is put in its place. -/
theorem proceeds_setWorkspace {index : Nat} {state : Workspace} (q : Workspace.Request)
    (hstate : ∀ h, w.workspaces[index]? = some h → h.workspace.after q = state) :
    Proceeds Pool.Move.IsOpen i w ((setWorkspace index state).run w).2 := by
  rw [setWorkspace, run_modify]
  split
  · exact .refl w
  · rename_i h hfound
    have hact : Act Pool.Move.IsOpen w.stores { w.stores with
        workspaces := w.workspaces.set! index { h with workspace := h.workspace.after q } } :=
      .request index h hfound q
    rw [hstate h hfound] at hact
    exact .act hact rfl rfl

theorem does_newViewCall (file : EntryId) (viewType : String) :
    Does i (newViewCall file viewType) := fun _ =>
  .act (.viewCall file viewType) rfl rfl

theorem does_handOverView (call : Nat) : Does i (handOverView call) := fun _ =>
  .act (.handOver call) rfl rfl

/-! ### Tasks that are added -/

theorem does_spawn {r : Running} (hr : r.isJobless = true) : Does i (spawn r) := by
  intro w
  have hpush : Proceeds Pool.Move.IsOpen i w
      { w with tasks := w.tasks.push { running := r, isQueued := true } } :=
    .push hr true
  exact hpush.trans (.beside rfl rfl)

theorem does_newBroker (config : Config) : Does i (newBroker config) := by
  intro w
  let worker : Ticket := { task := w.tasks.size, serial := w.serial }
  have hmade : Proceeds Pool.Move.IsOpen i w { w with
      serial := w.serial + 1
      brokers := w.brokers.push (Broker.new config worker) } := .beside rfl rfl
  have hspawned : Does i (spawn (.unit (.begin (.registry w.brokers.size)))) :=
    does_spawn rfl
  exact hmade.trans (hspawned _)

theorem does_discardLater (broker : Nat) (orphan : Option ServiceId) :
    Does i (discardLater broker orphan) := by
  cases orphan with
  | none => exact .pure ()
  | some id =>
      have hspawned : Does i (spawn (.unit (.begin (.discard broker id)))) :=
        does_spawn rfl
      exact .bind hspawned fun _ => .pure _

theorem does_spawnBlocking (job : JobId) (work : Work) : Does i (spawnBlocking job work) := by
  intro w
  let borrowed := ((updatePool (·.borrowToken job)).run w).2
  have hborrowed : Proceeds Pool.Move.IsOpen i w borrowed :=
    does_updatePool (.borrow job) rfl nofun (fun _ => rfl) w
  have hwork : (Running.blocking job (.begin (.work job work))).isJobless = true := rfl
  have hpushed : Proceeds Pool.Move.IsOpen i borrowed { borrowed with
      tasks := borrowed.tasks.push
        { running := .blocking job (.begin (.work job work)), isQueued := true } } :=
    .push hwork true
  exact (hborrowed.trans hpushed).trans (.beside rfl rfl)

/-- A job is submitted, and its task is added, which has the job's course before it. -/
theorem does_submit (name : String) (body : JobBody) : Does i (submit name body) := by
  intro w
  obtain ⟨hid, haside⟩ := onPool_run (·.submit name) w
  let asked : World := ((onPool (·.submit name)).run w).2
  let id : JobId := ⟨w.pool.jobs.length + 1⟩
  let course : Running := .job id (.begin (.task id body))
  have hasked : Acts Pool.Move.IsOpen w.stores asked.stores := by
    have hmove : Act Pool.Move.IsOpen w.stores
        { w.stores with pool := w.stores.pool.step (.submit name) } := .pool _ rfl rfl
    rw [haside.stores]
    exact .one hmove
  have hjobs : asked.pool.jobs = w.pool.jobs ++ [{ id := id, name }] :=
    congrArg (·.pool.jobs) haside.stores
  have hnew (h : InStep i w) : w.pool.job? id = none := by
    obtain ⟨config, moves, hpool⟩ := h.pool
    have haccounts := Pool.Accounts.run config moves
    rw [← hpool] at haccounts
    exact haccounts.job?_next
  have hjob (h : InStep i w) : asked.pool.job? id = some { id := id, name } := by
    have hnone := hnew h
    rw [Pool.job?] at hnone
    rw [Pool.job?, hjobs, List.find?_append, hnone, Option.none_or, List.find?_cons_of_pos]
    exact decide_eq_true rfl
  have hadded : Proceeds Pool.Move.IsOpen i w { asked with
      tasks := asked.tasks.push { running := course, isQueued := true } } := by
    refine ⟨hasked, ?kept, fun h => (h.of_acts hasked haside.tasks).push ?stands ?known ?new true,
      ?added⟩
    case kept =>
      intro j task htask
      have hrunning := haside.tasks j
      rw [show w.tasks[j]? = _ from htask, Option.map_some] at hrunning
      obtain ⟨task', htask', hrunning⟩ := Option.map_eq_some_iff.mp hrunning
      obtain ⟨hlt, -⟩ := Array.getElem?_eq_some_iff.mp htask'
      exact ⟨task', (Array.getElem?_push_lt hlt).trans
        ((Array.getElem?_eq_getElem hlt).symm.trans htask'), hrunning⟩
    case added =>
      intro other hother
      change (asked.pool.job? other).isSome = true at hother
      rw [Pool.job?, hjobs, List.find?_append, Option.isSome_or, Bool.or_eq_true] at hother
      refine hother.imp_right fun hnew => ?_
      obtain rfl : id = other := by simpa using hnew
      exact ⟨_, _, body, Array.getElem?_push_size, rfl⟩
    case stands =>
      apply JobCourse.submitted
      rw [Pool.isIn_of_job? (hjob h)]
      rfl
    case known =>
      rintro _ ⟨⟩
      rw [hjob h]
      rfl
    case new =>
      rintro _ ⟨⟩ j task' htask' hid'
      obtain ⟨task, htask, hrunning⟩ := haside.tasks.back htask'
      have hknown := h.known j task id htask (by rw [hrunning, hid'])
      rw [hnew h] at hknown
      cases hknown
  exact hadded.trans (.beside rfl rfl)

end EventHub.Simulation.Sim
