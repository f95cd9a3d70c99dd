import EventHub.Proofs.Replay.Discards
import EventHub.Proofs.Simulation.Schedule

/-!
Between two turns nothing is under way but what the tasks hold. Whoever runs next, and
however far it gets, the world replays the traffic at a broker before and after.
-/

namespace EventHub.Simulation

variable {k i : Nat} {x : Traffic Action} {w : World}

namespace Replays

/-- A task that begins to run holds what it held. -/
theorem enter (h : Replays k none x w) {task : Task} (htask : w.tasks[i]? = some task)
    {w' : World} (hcurrent : w'.current = i) (hbrokers : w'.brokers = w.brokers)
    (hserial : w'.serial = w.serial) (htasks : ∀ j, i ≠ j → w'.tasks[j]? = w.tasks[j]?) :
    Replays k (some i) x w' ∧ ∃ ts, task.running.Holds k x ts ∧ Owns i w' ts := by
  have hle : w.serial ≤ w'.serial := Nat.le_of_eq hserial.symm
  obtain ⟨ts, hholds, hown⟩ := h.others i task (by simp) htask
  refine ⟨?_, ts, hholds, hown.mono hle⟩
  constructor
  case current => exact fun j hj => hcurrent.trans (Option.some.inj hj)
  case found => rw [hbrokers]; exact h.found
  case absent => rw [hbrokers]; exact h.absent
  case fresh => rw [hserial]; exact h.fresh
  case others =>
    intro j task' hj htask'
    rw [htasks j fun heq => hj (congrArg some heq)] at htask'
    obtain ⟨ts', hholds', hown'⟩ := h.others j task' (by simp) htask'
    exact ⟨ts', hholds', hown'.mono hle⟩

/-- What a task runs is put down, whatever it is. -/
theorem setTask (h : Replays k (some i) x w) (change : Task → Task) :
    Replays k (some i) x ((Sim.setTask i change).run w).2 := by
  rw [Sim.setTask, Sim.run_modify]
  split
  · exact h
  · refine ⟨h.current, h.found, h.absent, h.fresh, ?_⟩
    intro j task hj htask
    have hne : i ≠ j := fun heq => hj (congrArg some heq)
    rw [getElem?_set_other hne] at htask
    obtain ⟨ts, hholds, hown⟩ := h.others j task hj htask
    exact ⟨ts, hholds, hown.nodup, hown.own⟩

/-- A task that has run holds what it holds now. -/
theorem leave (h : Replays k (some i) x w) {running : Running} {ts : List Ticket}
    (hholds : running.Holds k x ts) (hown : Owns i w ts) :
    Replays k none x ((Sim.setTask i fun t => { t with running }).run w).2 := by
  have hset := h.setTask fun t => { t with running }
  refine ⟨by simp, hset.found, hset.absent, hset.fresh, ?_⟩
  intro j task _ htask
  by_cases hj : some i = some j
  · obtain rfl := Option.some.inj hj
    rw [Sim.setTask, Sim.run_modify] at htask ⊢
    split at htask
    · rename_i hnone
      cases hnone.symm.trans htask
    · rename_i old hold
      rw [getElem?_set_self hold] at htask
      cases htask
      simp only
      exact ⟨ts, hholds, hown.nodup, hown.own⟩
  · exact hset.others j task hj htask

/-- Whose turn it is does not matter between two turns. -/
theorem between {w' : World} (h : Replays k none x w) (hbrokers : w'.brokers = w.brokers)
    (hserial : w'.serial = w.serial) (htasks : w'.tasks = w.tasks) : Replays k none x w' where
  current := by simp
  found := by rw [hbrokers]; exact h.found
  absent := by rw [hbrokers]; exact h.absent
  fresh := by rw [hserial]; exact h.fresh
  others := by
    intro j task hj htask
    rw [htasks] at htask
    obtain ⟨ts, hholds, hown⟩ := h.others j task hj htask
    exact ⟨ts, hholds, hown.mono (Nat.le_of_eq hserial.symm)⟩

end Replays

namespace Sim

theorem calms_scriptEnded (task : Nat) (token : Option JobId) (joined : Joined) :
    Calms k (scriptEnded task token joined) := by
  refine .bind (.optionForM (fun job => calms_updatePool _) token) fun _ => .getThen fun w => ?_
  exact Calm.set (.of_eq rfl (Nat.le_refl _) rfl rfl) (calms_wakeAll _)

theorem calms_blockingEnded (task : Nat) (job : JobId) (outcome : Outcome JobResult) :
    Calms k (blockingEnded task job outcome) := by
  refine .getThen fun w => ?_
  refine Calm.set (.of_eq rfl (Nat.le_refl _) rfl rfl) (.bind (calms_wakeAll _) fun _ => ?_)
  exact calms_updatePool _

theorem plays_settle (f : Future .unit) :
    Plays k i (fun x => f.Holds k x) (settle f) fun r x => r.Holds k x := by
  refine .bind (plays_poll pollFuel f) fun f => ?_
  cases f with
  | done o =>
      refine .bind (.calm ?_ Held.local_none) fun _ => .pure fun _ _ h => h
      exact .modify (fun _ => rfl) (fun _ => rfl) (fun _ => rfl) fun _ => rfl
  | _ => exact .pure fun _ _ h => h

/-- A task goes on as far as it can, with the tickets that it holds. -/
theorem plays_advance (task : Nat) (r : Running) :
    Plays k i (fun x => r.Holds k x) (advance task r) fun r x => r.Holds k x := by
  cases r with
  | finished => exact .pure fun _ _ h => h
  | unit f =>
      have hpoll : Plays k i (fun x ts => f.Holds k x ts ∨ Posts k x f ts) (poll pollFuel f)
          fun f x ts => f.Holds k x ts ∨ Posts k x f ts := by
        rintro x ts w h (hholds | hposts) hown
        · refine (plays_poll pollFuel f x ts w h hholds hown).mono ?_
          exact fun _ ts' h' => ⟨ts', .refl _, Or.inl h'⟩
        · exact plays_poll_posts pollFuel f x ts w h hposts hown
      refine .bind hpoll fun f => ?_
      cases f with
      | done o =>
          refine .pure ?_
          rintro x ts (h | h)
          · exact h
          · cases h
      | _ => exact .pure fun _ _ h => h
  | job job f =>
      refine .bind (plays_poll pollFuel f) fun f => ?_
      cases f <;> exact .pure fun _ _ h => h
  | blocking job f =>
      refine .bind (plays_poll pollFuel f) fun f => ?_
      cases f with
      | done o =>
          exact .bind (.calm (calms_blockingEnded task job o) Held.local_none) fun _ =>
            .pure fun _ _ h => h
      | _ => exact .pure fun _ _ h => h
  | script token f =>
      refine .bind (plays_poll pollFuel f) fun f => ?_
      cases f with
      | done o =>
          cases o with
          | returned list =>
              exact .bind (.calm (calms_scriptEnded task token _) Held.local_none) fun _ =>
                .pure fun _ _ h => h
          | panicked payload =>
              exact .bind (.calm (calms_scriptEnded task token _) Held.local_none) fun _ =>
                .pure fun _ _ h => h
      | _ => exact .pure fun _ _ h => h
  | main f =>
      refine .bind (plays_poll pollFuel f) fun f => ?_
      cases f with
      | done o =>
          refine .bind (.calm ?_ Held.local_none) fun _ => ?_
          · exact .modify (fun _ => rfl) (fun _ => rfl) (fun _ => rfl) fun _ => rfl
          · exact .bind (.calm (calms_alarmAfter _) Held.local_none) fun alarm =>
              (plays_settle _).weaken fun _ _ h => h
      | _ => exact .pure fun _ _ h => h
  | settling f => exact plays_settle f

/-- A task that is taken away gives up what it holds. -/
theorem plays_cancel (task : Nat) (r : Running) :
    Plays k i (fun x => r.Holds k x) (cancel task r) fun _ => .none := by
  have hdropped : Plays k i (fun x => r.Holds k x) (Pure.pure () : Sim Unit) fun _ => .none :=
    .drop (Q := fun _ x => r.Holds k x) (.pure fun _ _ h => h)
  cases r with
  | job job f =>
      exact .bind (plays_drop f) fun _ => .calm (calms_updatePool _) Held.local_none
  | script token f =>
      exact .bind (plays_drop f) fun _ => .calm (calms_scriptEnded _ _ _) Held.local_none
  | _ => exact hdropped

/-- The world goes on replaying the traffic. -/
def GoesOn (k : Nat) (x : Traffic Action) (w w' : World) : Prop :=
  ∃ x', Replays k none x' w' ∧ Onward k x w x' w'

/-- The world goes on replaying the traffic, and these tickets are left alone. -/
def GoesPast (k : Nat) (spared : Ticket → Prop) (x : Traffic Action) (w w' : World) : Prop :=
  ∃ x', Replays k none x' w' ∧ Onward k x w x' w' ∧ w.serial ≤ w'.serial ∧
    ∀ t, spared t → x'.tasks t = x.tasks t

section GoesPast

variable {spared : Ticket → Prop} {x' : Traffic Action} {w' w'' : World}

theorem GoesPast.refl (h : Replays k none x w) : GoesPast k spared x w w :=
  ⟨x, h, .refl x w, Nat.le_refl _, fun _ _ => rfl⟩

theorem GoesPast.goesOn (h : GoesPast k spared x w w') : GoesOn k x w w' := by
  obtain ⟨x', hreplays, honward, -⟩ := h
  exact ⟨x', hreplays, honward⟩

theorem GoesPast.after (h : GoesPast k spared x' w' w'') (honward : Onward k x w x' w')
    (hserial : w.serial ≤ w'.serial) (htasks : ∀ t, spared t → x'.tasks t = x.tasks t) :
    GoesPast k spared x w w'' := by
  obtain ⟨x'', hreplays, honward', hserial', htasks'⟩ := h
  exact ⟨x'', hreplays, honward.trans honward', Nat.le_trans hserial hserial',
    fun t ht => (htasks' t ht).trans (htasks t ht)⟩

end GoesPast

/-- The world replays traffic after the action if it did so before, and these tickets are left
alone. -/
def Keeps {α : Type} (k : Nat) (spared : Ticket → Prop) (m : Sim α) : Prop :=
  ∀ x w, Replays k none x w → GoesPast k spared x w (m.run w).2

variable {spared : Ticket → Prop}

namespace Keeps

variable {α β : Type}

theorem calm {m : Sim α} (hm : Calms k m) : Keeps k spared m := by
  intro x w h
  obtain ⟨x', h', honward, htasks, -⟩ := h.calm (hm w)
  exact ⟨x', h', honward, (hm w).serial, fun t _ => congrFun htasks t⟩

theorem bind {m : Sim α} {f : α → Sim β} (hm : Keeps k spared m)
    (hf : ∀ v, Keeps k spared (f v)) : Keeps k spared (m >>= f) := by
  intro x w h
  obtain ⟨x', h', honward, hserial, htasks⟩ := hm x w h
  exact (hf _ x' _ h').after honward hserial htasks

theorem pure (v : α) : Keeps k spared (Pure.pure v : Sim α) := .calm (.pure v)

end Keeps

/-- What is done between two turns. -/
theorem Keeps.modify {f : World → World} (hbrokers : ∀ w, (f w).brokers = w.brokers)
    (hserial : ∀ w, (f w).serial = w.serial) (htasks : ∀ w, (f w).tasks = w.tasks) :
    Keeps k spared (MonadStateOf.modifyGet fun w => ((), f w) : Sim Unit) := fun x w h =>
  ⟨x, h.between (hbrokers w) (hserial w) (htasks w), .of_eq (by rw [← hbrokers w]; rfl),
    Nat.le_of_eq (hserial w).symm, fun _ _ => rfl⟩

/-- The action brings the turn of a task that runs this to its end. -/
def Finishes {α : Type} (k i : Nat) (spared : Ticket → Prop) (r : Running) (m : Sim α) : Prop :=
  ∀ x ts w, Replays k (some i) x w → r.Holds k x ts → Owns i w ts →
    GoesPast k spared x w (m.run w).2

theorem Finishes.bind {α β : Type} {r : Running} {m : Sim α} {f : α → Sim β}
    (hm : Finishes k i spared r m) (hf : ∀ v, Keeps k spared (f v)) :
    Finishes k i spared r (m >>= f) := by
  intro x ts w h hholds hown
  obtain ⟨x', h', honward, hserial, htasks⟩ := hm x ts w h hholds hown
  exact (hf _ x' _ h').after honward hserial htasks

theorem onward_setTask (id : Nat) (change : Task → Task) :
    Onward k x w x ((setTask id change).run w).2 := by
  refine .of_eq ?_
  rw [setTask, run_modify]
  split <;> rfl

theorem serial_setTask (id : Nat) (change : Task → Task) (w : World) :
    ((setTask id change).run w).2.serial = w.serial := by
  rw [setTask, run_modify]
  split <;> rfl

section Turn

variable (hspared : ∀ t, spared t → t.task ≠ i)

include hspared

/-- What a task does to its own tickets is nothing to those of the others. -/
theorem Goes.spares {ts : List Ticket} {x' : Traffic Action} {w' : World}
    (h : Goes k i ts x w x' w') (hown : Owns i w ts) :
    ∀ t, spared t → x'.tasks t = x.tasks t := fun t ht =>
  h.rest t (fun hmem => hspared t ht (hown.own t hmem).1) (Or.inl (hspared t ht))

theorem finishes_finishTask (r : Running) : Finishes k i spared r (finishTask i r) := by
  intro x ts w h hholds hown
  obtain ⟨x', ts', hgoes, hnone, hown', -⟩ := plays_cancel i r x ts w h hholds hown
  exact ⟨x', hgoes.replays.leave hnone hown', hgoes.onward.trans (onward_setTask _ _),
    Nat.le_trans hgoes.serial (Nat.le_of_eq (serial_setTask _ _ _).symm),
    Goes.spares hspared hgoes hown⟩

theorem finishes_putDown (r : Running) : Finishes k i spared r (putDown i r) := by
  intro x ts w h hholds hown
  have hset := h.setTask fun t => { t with running := r }
  have hserial := serial_setTask i (fun t => { t with running := r }) w
  rw [putDown, run_bind, run_bind]
  split
  · have hgoes := finishes_finishTask hspared r x ts _ hset hholds
      (hown.mono (Nat.le_of_eq hserial.symm))
    exact hgoes.after (onward_setTask i _) (Nat.le_of_eq hserial.symm) fun _ _ => rfl
  · exact ⟨x, h.leave hholds hown, onward_setTask i _, Nat.le_of_eq hserial.symm, fun _ _ => rfl⟩

theorem finishes_ownTurn (t : Task) : Finishes k i spared t.running (ownTurn i t) := by
  intro x ts w h hholds hown
  rw [ownTurn]
  split
  · exact finishes_finishTask hspared t.running x ts w h hholds hown
  · obtain ⟨x', ts', hgoes, hholds', hown', -⟩ :=
      plays_advance i t.running x ts w h hholds hown
    exact (finishes_putDown hspared _ x' ts' _ hgoes.replays hholds' hown').after hgoes.onward
      hgoes.serial (Goes.spares hspared hgoes hown)

end Turn

theorem keeps_endTurn (id : Nat) : Keeps k spared (endTurn id) := by
  refine .bind (.calm .get) fun w => ?_
  refine .bind (.modify (fun _ => rfl) (fun _ => rfl) fun _ => rfl) fun _ => ?_
  split
  · exact .calm (calms_wakeTask id)
  · exact .pure ()

/-- A task runs until it waits, ends or is taken away. -/
theorem keeps_runTask (id : Nat) (hspared : ∀ t, spared t → t.task ≠ id) :
    Keeps k spared (runTask id) := by
  intro x w h
  cases htask : w.tasks[id]? with
  | none =>
      rw [runTask_run_none htask]
      exact .refl h
  | some t =>
      have henter : Replays k (some id) x (w.entered id t) ∧
          ∃ ts, t.running.Holds k x ts ∧ Owns id (w.entered id t) ts :=
        h.enter htask rfl rfl rfl fun j hj => getElem?_set_other hj _
      obtain ⟨h', ts, hholds, hown⟩ := henter
      rw [runTask_run htask]
      exact (finishes_ownTurn hspared t).bind (fun _ => keeps_endTurn id) x ts _ h' hholds hown

theorem calms_lookAround : Calms k lookAround := by
  have hsignals : Calms k deliverSignals := by
    refine .getThen fun w => ?_
    split
    · exact Calm.set (.of_eq rfl (Nat.le_refl _) rfl rfl) (calms_wakeAll _)
    · exact .refl w
  refine .bind hsignals fun _ => .getThen fun w => ?_
  exact Calm.set (.of_eq rfl (Nat.le_refl _) rfl rfl) (.forM calms_wakeTask _)

/-- What runs next, if anything does. -/
theorem keeps_runNext : Keeps k (fun _ => False) runNext := by
  intro x w h
  have hnext := runsNext w
  generalize w.nextTurn? = turn, (runNext.run w).2 = w' at hnext ⊢
  cases hnext with
  | turn id => exact keeps_runTask id (fun _ h => h.elim) x _ (h.between rfl rfl rfl)
  | look => exact Keeps.calm calms_lookAround x w h
  | rest => exact ⟨x, h.between rfl rfl rfl, .of_eq rfl, Nat.le_refl _, fun _ _ => rfl⟩

theorem keeps_moveClock : Keeps k spared moveClock := by
  refine .calm (.getThen fun w => ?_)
  split
  · exact Calm.set (.of_eq rfl (Nat.le_refl _) rfl rfl) (.bind (calms_wakeAll _) fun _ => .pure _)
  · exact .refl w

end Sim

end EventHub.Simulation
