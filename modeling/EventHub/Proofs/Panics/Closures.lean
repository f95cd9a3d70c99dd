import EventHub.Proofs.Events.Ledger
import EventHub.Proofs.Panics.Jobs
import EventHub.Proofs.Stores.Reach

/-!
Blocking work that breaks off. It runs in a task of its own, and what it has come to is
noted for that task once and for all. The body of its job waits for that, and makes a
result of it whatever it is.
-/

namespace EventHub

namespace Simulation

variable {a b : Shape} {w w' w'' : World} {i : Nat} {r r' : Running}

/-- A task whose work has come to an end runs nothing any more. -/
def Noted (w : World) : Prop :=
  ∀ i ended, w.blockingDone.lookup i = some ended →
    ∃ t : Task, w.tasks[i]? = some t ∧ t.running = .finished

/-- What was noted stays noted, and that is so for good. -/
structure Remembers (w w' : World) : Prop where
  lasts : ∀ i ended, w.blockingDone.lookup i = some ended →
    w'.blockingDone.lookup i = some ended
  noted : Noted w'

theorem Remembers.refl (h : Noted w) : Remembers w w := ⟨fun _ _ h => h, h⟩

theorem Remembers.trans (h : Remembers w w') (h' : Remembers w' w'') : Remembers w w'' :=
  ⟨fun i ended hended => h'.lasts i ended (h.lasts i ended hended), h'.noted⟩

theorem Untouched.remembers (h : Untouched w w') (hw : Noted w) : Remembers w w' := by
  have hlasts (i : Nat) (ended : Outcome JobResult) :
      w'.blockingDone.lookup i = some ended ↔ w.blockingDone.lookup i = some ended := by
    rw [h.done]
  refine ⟨fun i ended => (hlasts i ended).mpr, ?_⟩
  intro i ended hended
  obtain ⟨t, ht, hfinished⟩ := hw i ended ((hlasts i ended).mp hended)
  obtain ⟨t', ht', hrunning⟩ := h.tasks i t ht
  exact ⟨t', ht', hrunning.trans hfinished⟩

/-- A task that runs something else than before, unless it was over. -/
theorem Noted.set_task (h : Noted w) {t : Task} (ht : w.tasks[i]? = some t)
    (hover : t.running = .finished → r = .finished) :
    Remembers w { w with tasks := w.tasks.set! i { t with running := r } } := by
  refine ⟨fun _ _ h => h, ?_⟩
  intro j ended hended
  obtain ⟨s, hs, hfinished⟩ := h j ended hended
  by_cases hj : i = j
  · subst hj
    cases ht.symm.trans hs
    exact ⟨_, getElem?_set_self ht _, hover hfinished⟩
  · exact ⟨s, (getElem?_set_other hj _).trans hs, hfinished⟩

/-- Where a task comes to from what it ran. Only blocking work has its end noted, and is
over then. -/
structure Comes (i : Nat) (r : Running) (w : World) (r' : Running) (w' : World) : Prop where
  tasks : ∀ (j : Nat) (t : Task), w.tasks[j]? = some t →
    ∃ t', w'.tasks[j]? = some t' ∧ t'.running = t.running
  finished : r = .finished → r' = .finished
  done : w'.blockingDone = w.blockingDone ∨
    r ≠ .finished ∧ r' = .finished ∧ ∃ ended, w'.blockingDone = (i, ended) :: w.blockingDone
  preset : w'.preset = w.preset

theorem Comes.of_untouched (h : Untouched w w') (hover : r = .finished → r' = .finished) :
    Comes i r w r' w' :=
  ⟨h.tasks, hover, Or.inl h.done, h.preset⟩

namespace Sim

variable {α β : Type}

/-- Code that is run between two turns, and what is noted stays noted. -/
def Remembering (m : Sim α) : Prop := ∀ w, Noted w → Remembers w (m.run w).2

theorem Remembering.of_leaves {m : Sim α} (h : Leaves m) : Remembering m := fun w =>
  (h w).toUntouched.remembers

theorem Remembering.bind {m : Sim α} {f : α → Sim β} (hm : Remembering m)
    (hf : ∀ v, Remembering (f v)) : Remembering (m >>= f) := by
  intro w h
  have hfirst := hm w h
  rw [run_bind]
  exact hfirst.trans (hf _ _ hfirst.noted)

/-! ### What a task comes to -/

theorem leaves_scriptEnded (task : Nat) (token : Option JobId) (joined : Joined) :
    Leaves (scriptEnded task token joined) := by
  refine .bind (.optionForM (fun job => leaves_updatePool _) token) fun _ => .getThen fun w => ?_
  exact Leaves.set (.of_eq rfl) (leaves_wakeAll _)

/-- The end of blocking work is noted before anything else. -/
theorem blockingEnded_run (task : Nat) (job : JobId) (ended : Outcome JobResult) (w : World) :
    ∃ v, v.blockingDone = (task, ended) :: w.blockingDone ∧ v.tasks = w.tasks ∧
      v.preset = w.preset ∧ Untouched v ((blockingEnded task job ended).run w).2 := by
  have hrest : Leaves (wakeAll ((w.blockingWaiters.partition fun b => b.1 = task).1.map Prod.snd)
      >>= fun _ => updatePool (·.returnToken job)) :=
    .bind (leaves_wakeAll _) fun _ => leaves_updatePool _
  refine ⟨{ w with
    blockingDone := (task, ended) :: w.blockingDone
    blockingWaiters := (w.blockingWaiters.partition fun b => b.1 = task).2
    blockingActive := none }, rfl, rfl, rfl, ?_⟩
  exact (hrest _).toUntouched

/-- Work that has come to an end, in whatever way, leaves its task with a note of that. -/
theorem advance_blocking (task : Nat) (job : JobId) {code : Future .job}
    {ended : Outcome JobResult} {w v : World}
    (hended : (poll pollFuel code).run w = (.done ended, v)) :
    ∃ w', (advance task (.blocking job code)).run w = (.finished, w') ∧
      w'.blockingDone = (task, ended) :: v.blockingDone ∧ w'.preset = v.preset ∧
      ∀ (j : Nat) (t : Task), v.tasks[j]? = some t →
        ∃ t', w'.tasks[j]? = some t' ∧ t'.running = t.running := by
  obtain ⟨u, hdone, htasks, hpreset, huntouched⟩ := blockingEnded_run task job ended v
  have hrun : (advance task (.blocking job code)).run w =
      (.finished, ((blockingEnded task job ended).run v).2) := by
    rw [advance, run_bind, hended]
    rfl
  refine ⟨_, hrun, huntouched.done.trans hdone, huntouched.preset.trans hpreset, ?_⟩
  rw [← htasks]
  exact huntouched.tasks

/-- Only what the task itself does is entered, not what is made of its end. -/
theorem records_then {f : Future a} {next : Future a → Sim β} (hnext : ∀ f, Leaves (next f))
    (w : World) : Records w (pollEntries pollFuel f w) ((poll pollFuel f >>= next).run w).2 :=
  (records_poll pollFuel f w).then_uneventful (hnext _ _)

/-- A task that does no blocking work leaves alone what is for the schedule. -/
theorem records_advance (i : Nat) {r : Running} (hr : ∀ job f, r ≠ .blocking job f) (w : World) :
    Records w (r.entries w) ((advance i r).run w).2 := by
  cases r with
  | finished => exact .refl w
  | blocking job f => exact absurd rfl (hr job f)
  | unit f =>
      refine records_then (fun f => ?_) w
      cases f <;> exact .pure _
  | job id f =>
      refine records_then (fun f => ?_) w
      cases f <;> exact .pure _
  | script token f =>
      refine records_then (fun f => ?_) w
      cases f with
      | done o => cases o <;> exact .bind (leaves_scriptEnded _ _ _) fun _ => .pure _
      | _ => exact .pure _
  | main f =>
      refine records_then (fun f => ?_) w
      cases f with
      | done o =>
          refine .bind (.modify fun _ => rfl) fun _ => .bind (leaves_alarmAfter _) fun alarm => ?_
          refine .bind (leaves_alarmWait pollFuel alarm) fun f => ?_
          cases f with
          | done o => exact .bind (.modify fun _ => rfl) fun _ => .pure _
          | _ => exact .pure _
      | _ => exact .pure _
  | settling f =>
      refine records_then (fun f => ?_) w
      cases f with
      | done o => exact .bind (.modify fun _ => rfl) fun _ => .pure _
      | _ => exact .pure _

theorem comes_advance (i : Nat) (r : Running) (w : World) :
    Comes i r w ((advance i r).run w).1 ((advance i r).run w).2 := by
  have huntouched (hr : ∀ job f, r ≠ .blocking job f) (hover : r ≠ .finished) :
      Comes i r w ((advance i r).run w).1 ((advance i r).run w).2 :=
    .of_untouched (records_advance i hr w).toUntouched fun h => absurd h hover
  cases r with
  | finished => exact .of_untouched (.refl w) fun _ => rfl
  | blocking job code =>
      have hpolled := (records_poll pollFuel code w).toUntouched
      cases hcode : (poll pollFuel code).run w with
      | mk f v =>
          rw [hcode] at hpolled
          cases f with
          | done ended =>
              obtain ⟨w', hrun, hdone, hpreset, htasks⟩ := advance_blocking i job hcode
              rw [hrun]
              refine ⟨?_, fun _ => rfl, Or.inr ⟨fun h => (by cases h), rfl, ended, ?_⟩,
                hpreset.trans hpolled.preset⟩
              · intro j t ht
                obtain ⟨t', ht', hrunning⟩ := hpolled.tasks j t ht
                obtain ⟨t'', ht'', hrunning'⟩ := htasks j t' ht'
                exact ⟨t'', ht'', hrunning'.trans hrunning⟩
              · rw [hdone, hpolled.done]
          | _ =>
              rw [advance, run_bind, hcode]
              exact .of_untouched hpolled fun h => (by cases h)
  | _ => exact huntouched (fun _ _ h => (by cases h)) fun h => (by cases h)

theorem leaves_cancel (task : Nat) (r : Running) : Leaves (cancel task r) := by
  cases r with
  | job id f => exact .bind (leaves_drop f) fun _ => leaves_updatePool _
  | script token f => exact .bind (leaves_drop f) fun _ => leaves_scriptEnded _ _ _
  | _ => exact .pure ()

/-! ### Turns -/

theorem remembering_setTask (id : Nat) (hover : r = .finished) :
    Remembering (setTask id fun t => { t with running := r }) := by
  intro w h
  cases ht : w.tasks[id]? with
  | none =>
      have hrun : ((setTask id fun t => { t with running := r }).run w).2 = w := by
        rw [setTask, run_modify]
        simp only [ht]
      rw [hrun]
      exact .refl h
  | some t =>
      rw [setTask_run ht]
      exact h.set_task ht fun _ => hover

theorem remembering_finishTask (id : Nat) (r : Running) : Remembering (finishTask id r) :=
  .bind (.of_leaves (leaves_cancel id r)) fun _ => remembering_setTask id rfl

/-- What a task has come to is put down, which is what its note asks for. -/
theorem remembers_putDown (h : Noted w) {t : Task} (ht : w.tasks[i]? = some t)
    (hcomes : Comes i t.running w r w') : Remembers w ((putDown i r).run w').2 := by
  obtain ⟨t', ht', hrunning⟩ := hcomes.tasks i t ht
  have hset := setTask_run ht' fun t => { t with running := r }
  have hput : Remembers w { w' with tasks := w'.tasks.set! i { t' with running := r } } := by
    have hself := getElem?_set_self ht' { t' with running := r }
    -- Of the others nothing has changed; the task itself was not over if it has a note now.
    have hkept (j : Nat) (ended : Outcome JobResult)
        (hended : w.blockingDone.lookup j = some ended) :
        ∃ s : Task, (w'.tasks.set! i { t' with running := r })[j]? = some s ∧
          s.running = .finished := by
      obtain ⟨s, hs, hfinished⟩ := h j ended hended
      obtain ⟨s', hs', hsame⟩ := hcomes.tasks j s hs
      by_cases hj : i = j
      · subst hj
        cases ht.symm.trans hs
        exact ⟨_, hself, hcomes.finished hfinished⟩
      · exact ⟨s', (getElem?_set_other hj _).trans hs', hsame.trans hfinished⟩
    rcases hcomes.done with hdone | ⟨hnot, rfl, ended, hdone⟩
    · refine ⟨fun j ended => ?_, fun j ended hended => hkept j ended ?_⟩
      · rw [← hdone]
        exact id
      · rw [← hdone]
        exact hended
    · have hlookup (j : Nat) (hj : i ≠ j) :
          ((i, ended) :: w.blockingDone).lookup j = w.blockingDone.lookup j := by
        rw [List.lookup_cons, beq_false_of_ne (Ne.symm hj)]
      constructor
      · intro j before hbefore
        have hj : i ≠ j := by
          rintro rfl
          obtain ⟨s, hs, hfinished⟩ := h i before hbefore
          cases ht.symm.trans hs
          exact hnot hfinished
        exact (congrArg (List.lookup j) hdone).trans ((hlookup j hj).trans hbefore)
      · intro j before hbefore
        by_cases hj : i = j
        · subst hj
          exact ⟨_, hself, rfl⟩
        · refine hkept j before ((hlookup j hj).symm.trans ?_)
          exact (congrArg (List.lookup j) hdone).symm.trans hbefore
  rw [putDown, run_bind, hset, run_bind]
  split
  · exact hput.trans (remembering_finishTask i r _ hput.noted)
  · exact hput

theorem remembers_ownTurn (h : Noted w) {t : Task} (ht : w.tasks[i]? = some t) :
    Remembers w ((ownTurn i t).run w).2 := by
  rw [ownTurn]
  split
  · exact remembering_finishTask i t.running w h
  · exact remembers_putDown h ht (comes_advance i t.running w)

theorem leaves_endTurn (id : Nat) : Leaves (endTurn id) := by
  refine .bind .get fun w => .bind (.modify fun _ => rfl) fun _ => ?_
  split
  · exact leaves_wakeTask id
  · exact .pure ()

theorem uneventful_entered {id : Nat} {t : Task} (ht : w.tasks[id]? = some t) :
    Uneventful w (w.entered id t) := by
  have hset : Uneventful w { w with tasks := w.tasks.set! id { t with isQueued := false } } :=
    .set_task ht rfl
  exact hset.trans (.of_eq rfl)

theorem remembering_runTask (id : Nat) : Remembering (runTask id) := by
  intro w h
  cases ht : w.tasks[id]? with
  | none =>
      rw [runTask_run_none ht]
      exact .refl h
  | some t =>
      have henter := (uneventful_entered ht).toUntouched.remembers h
      have hself : (w.entered id t).tasks[id]? = some { t with isQueued := false } :=
        getElem?_set_self ht _
      have hown : Remembers (w.entered id t)
          ((ownTurn id { t with isQueued := false }).run (w.entered id t)).2 :=
        remembers_ownTurn henter.noted hself
      rw [runTask_run ht, run_bind]
      exact (henter.trans hown).trans ((leaves_endTurn id _).toUntouched.remembers hown.noted)

theorem leaves_lookAround : Leaves lookAround := by
  have hsignals : Leaves deliverSignals := by
    refine .getThen fun w => ?_
    split
    · exact Leaves.set (.of_eq rfl) (leaves_wakeAll _)
    · exact .refl w
  refine .bind hsignals fun _ => .getThen fun w => ?_
  exact Leaves.set (.of_eq rfl) (.forM leaves_wakeTask _)

theorem remembering_runNext : Remembering runNext := by
  intro w h
  have hbetween {w' : World} (hsame : Uneventful w w') : Remembers w w' :=
    hsame.toUntouched.remembers h
  have hnext := runsNext w
  generalize w.nextTurn? = turn, (runNext.run w).2 = w' at hnext ⊢
  cases hnext with
  | turn id ready blockingQueue streak blockingActive =>
      have hchosen : Remembers w (w.choosing ready blockingQueue streak blockingActive) :=
        hbetween (.of_eq rfl)
      exact hchosen.trans (remembering_runTask id _ hchosen.noted)
  | look => exact hbetween (leaves_lookAround w)
  | rest => exact hbetween (.of_eq rfl)

theorem leaves_moveClock : Leaves moveClock := by
  refine .getThen fun w => ?_
  split
  · exact Leaves.set (.of_eq rfl) (.bind (leaves_wakeAll _) fun _ => .pure _)
  · exact .refl w

end Sim

/-! ### The body of a blocking job -/

variable {job : JobId} {work : Work} {turns : List (World × World)}

/-- The work is handed to a task of its own, and is not begun. -/
theorem spawnBlocking_task (job : JobId) (work : Work) (w : World) :
    ((Sim.spawnBlocking job work).run w).2.tasks[((Sim.spawnBlocking job work).run w).1]? =
      some { running := .blocking job (.begin (.work job work)), isQueued := true } := by
  rw [Sim.spawnBlocking]
  exact Array.getElem?_push_size

/-- A turn leaves alone what the tasks run. -/
theorem Runs.untouched {f : Future a} {rest : List (World × World)} {o : Outcome a.Value}
    (h : Runs f ((w, w') :: rest) o) : Untouched w w' := by
  have hpoll {n : Nat} {g : Future a} (hturn : (Sim.poll n f).run w = (g, w')) :
      Untouched w w' := by
    have hleft := (Sim.records_poll n f w).toUntouched
    rwa [hturn] at hleft
  cases h with
  | last n hturn => exact hpoll hturn
  | turn n hturn _ _ => exact hpoll hturn

/-- The body of a blocking job hands its work to a task in one turn, and has the result that is
noted for that task when another one begins. -/
theorem runs_blocking_handed {o : Outcome JobResult}
    (h : Runs (.begin (.body job (.blocking work))) turns o) :
    ∃ first ∈ turns, Untouched ((Sim.spawnBlocking job work).run first.1).2 first.2 ∧
      ∃ turn ∈ turns, ∃ ended,
        turn.1.blockingDone.lookup ((Sim.spawnBlocking job work).run first.1).1 = some ended ∧
        o = .returned (Sim.blockingResult ended) := by
  obtain ⟨before, w, w', rest, rfl, hruns⟩ := h.of_begin
  have hleft : Untouched w ((Sim.begin (.body job (.blocking work))).run w).2 :=
    (Sim.leaves_begin (show ¬ (Begin.body job (.blocking work)).WritesFile from id) w).toUntouched
  obtain ⟨t, hwait, hbegun⟩ : ∃ t, ((Sim.begin (.body job (.blocking work))).run w).1 =
        .wait (.blocking ((Sim.spawnBlocking job work).run w).1 t) ∧
      ((Sim.begin (.body job (.blocking work))).run w).2 =
        (Sim.ticket.run ((Sim.spawnBlocking job work).run w).2).2 := by
    rw [Sim.begin]
    exact ⟨_, rfl, rfl⟩
  have hhanded := hruns.untouched
  rw [hbegun] at hhanded
  rw [hwait] at hruns
  obtain ⟨turn, hturn, v, hready, ho⟩ := hruns.of_awaits (awaits_blocking _ t)
  obtain ⟨ended, hended, rfl⟩ := Option.map_eq_some_iff.mp hready
  refine ⟨(w, w'), by simp, (Sim.leaves_ticket _).toUntouched.trans hhanded, ?_⟩
  rcases List.mem_cons.mp hturn with rfl | hrest
  · refine ⟨(w, w'), by simp, ended, ?_, ho⟩
    rw [← hleft.done]
    exact hended
  · exact ⟨turn, by simp [hrest], ended, hended, ho⟩

/-- The body of a blocking job has the result that is noted for the task of its work. -/
theorem runs_blocking {o : Outcome JobResult}
    (h : Runs (.begin (.body job (.blocking work))) turns o) :
    ∃ first ∈ turns, ∃ turn ∈ turns, ∃ ended,
      turn.1.blockingDone.lookup ((Sim.spawnBlocking job work).run first.1).1 = some ended ∧
      o = .returned (Sim.blockingResult ended) := by
  obtain ⟨first, hfirst, -, hresult⟩ := runs_blocking_handed h
  exact ⟨first, hfirst, hresult⟩

end Simulation

namespace Scenario

open EventHub.Simulation

variable {s : Scenario} {w w' : World}

theorem Leads.remembers (h : Leads w w') (hnoted : Noted w) : Remembers w w' := by
  induction h with
  | refl => exact .refl hnoted
  | handIn step _ ih =>
      have hleaves : Sim.Leaves (Scenario.handIn step) := by
        refine .bind (.modify fun _ => rfl) fun _ => ?_
        exact .bind (Sim.leaves_spawn _) fun _ => .pure _
      exact ih.trans ((hleaves _).toUntouched.remembers ih.noted)
  | next _ ih => exact ih.trans (Sim.remembering_runNext _ ih.noted)
  | clock _ ih => exact ih.trans ((Sim.leaves_moveClock _).toUntouched.remembers ih.noted)

theorem untouched_start : Untouched s.blank s.start := by
  have hparser : Sim.Leaves (s.parser.mapM fun p => do
      return { magic := p.1, plugin := ← Sim.plugin p.2 : Parser }) :=
    .optionMapM (fun p => .bind (Sim.leaves_plugin p.2) fun _ => .pure _) s.parser
  have hmade := (Sim.leaves_newBroker s.config s.blank).trans (hparser _)
  exact hmade.toUntouched.trans ⟨⟨rfl, fun _ t ht => ⟨t, ht, rfl⟩⟩, rfl⟩

/-- No work has come to an end before the first step. -/
theorem noted_start : Noted s.start := by
  intro i ended hended
  rw [untouched_start.done] at hended
  cases hended

/-- What the work of a task has come to stays so in every later world. -/
theorem Leads.blockingDone_onward (h : Leads s.start w) (h' : Leads w w') {task : Nat}
    {ended : Outcome JobResult} (hended : w.blockingDone.lookup task = some ended) :
    w'.blockingDone.lookup task = some ended :=
  (h'.remembers (h.remembers noted_start).noted).lasts task ended hended

end Scenario

end EventHub
