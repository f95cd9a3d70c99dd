import EventHub.Proofs.Jobs.Life

/-!
The work of a blocking job. The body of the job hands it to a task of its own, which runs it as
the only task that has it, and takes the result from what is noted about the end of that task. So
the result of the job is that of the one run of its work.
-/

namespace EventHub

open EventHub.Script EventHub.Simulation

namespace Simulation

variable {i j : Nat} {job : JobId} {work : Work} {w w' : World} {turns own : List (World × World)}
  {cut : Bool} {t : Task} {code : Future .job}

/-- What has become of blocking work after these turns of its task, which was taken away or not. -/
inductive WorkLife (j : Nat) (job : JobId) (work : Work) (turns : List (World × World)) :
    Bool → World → Prop
  | running {code : Future .job} {w : World} (t : Task) (htask : w.tasks[j]? = some t)
      (hrunning : t.running = .blocking job code)
      (hcode : Advances (.begin (.work job work)) turns code) (hgoes : ∀ o, code ≠ .done o)
      (hnone : w.blockingDone.lookup j = none) : WorkLife j job work turns false w
  | ended {own : List (World × World)} {o : Outcome JobResult} {w : World} (t : Task)
      (htask : w.tasks[j]? = some t) (hrunning : t.running = .finished)
      (hruns : Runs (.begin (.work job work)) own o)
      (hbegins : own.map Prod.fst = turns.map Prod.fst)
      (hnoted : w.blockingDone.lookup j = some o) : WorkLife j job work turns false w
  | takenAway {w : World} (t : Task) (htask : w.tasks[j]? = some t)
      (hrunning : t.running = .finished) (hnone : w.blockingDone.lookup j = none) :
      WorkLife j job work turns true w

theorem Sim.advance_blocking_goes {code' : Future .job}
    (h : (Sim.poll Sim.pollFuel code).run w = (code', w')) (hgoes : ∀ o, code' ≠ .done o) :
    (Sim.advance i (.blocking job code)).run w = (.blocking job code', w') := by
  rw [Sim.advance, Sim.run_bind, h]
  cases code' with
  | done o => exact absurd rfl (hgoes o)
  | _ => rfl

namespace WorkLife

theorem spared (h : WorkLife j job work turns cut w) (hspared : Spared j w w') :
    WorkLife j job work turns cut w' := by
  cases h with
  | running t htask hrunning hcode hgoes hnone =>
      obtain ⟨t', htask', hsame⟩ := hspared.running t htask
      exact .running t' htask' (hsame.trans hrunning) hcode hgoes (hspared.done.trans hnone)
  | ended t htask hrunning hruns hbegins hnoted =>
      obtain ⟨t', htask', hsame⟩ := hspared.running t htask
      exact .ended t' htask' (hsame.trans hrunning) hruns hbegins (hspared.done.trans hnoted)
  | takenAway t htask hrunning hnone =>
      obtain ⟨t', htask', hsame⟩ := hspared.running t htask
      exact .takenAway t' htask' (hsame.trans hrunning) (hspared.done.trans hnone)

/-- Work whose task has a turn had not come to its end. -/
theorem of_hasTurn (h : WorkLife j job work turns cut w) {v : World}
    (hturn : HasTurn j t w v w') :
    cut = false ∧ ∃ code, t.running = .blocking job code ∧
      Advances (.begin (.work job work)) turns code ∧ (∀ o, code ≠ .done o) ∧
      v.blockingDone.lookup j = none := by
  have htask : w.tasks[j]? = some t := hturn.chosen.tasks ▸ hturn.task
  cases h with
  | running t' htask' hrunning hcode hgoes hnone =>
      cases htask.symm.trans htask'
      exact ⟨rfl, _, hrunning, hcode, hgoes, hturn.chosen.done ▸ hnone⟩
  | ended t' htask' hrunning _ _ _ =>
      cases htask.symm.trans htask'
      exact absurd hrunning hturn.goes
  | takenAway t' htask' hrunning _ =>
      cases htask.symm.trans htask'
      exact absurd hrunning hturn.goes

/-- Nothing is noted when the task of the work is taken away. -/
theorem of_cancel {u v : World} (hnone : u.blockingDone.lookup j = none)
    (hwith : LeftWith j .finished ((Sim.cancel j (.blocking job code)).run u).2 v) :
    WorkLife j job work turns true v := by
  obtain ⟨t, htask, hrunning⟩ := hwith.task
  refine .takenAway t htask hrunning ?_
  rw [hwith.done]
  exact hnone

/-- The turn of work that was not taken away before. -/
theorem advance (htask : w.tasks[j]? = some t) (hrunning : t.running = .blocking job code)
    (haborted : t.isAborted = false) (hcode : Advances (.begin (.work job work)) turns code)
    (hgoes : ∀ o, code ≠ .done o) (hnone : w.blockingDone.lookup j = none) {r : Running}
    {u : World} (hrun : (Sim.advance j t.running).run (w.entered j t) = (r, u)) :
    WorkLife j job work (turns ++ [(w.entered j t, u)]) (!r.isOver && u.isAborted j)
      ((Sim.runTask j).run w).2 := by
  have hleft := (Sim.records_poll Sim.pollFuel code (w.entered j t)).toUntouched
  generalize hpolled : (Sim.poll Sim.pollFuel code).run (w.entered j t) = polled at hleft
  obtain ⟨code', v⟩ := polled
  have hadvance := hrun
  rw [hrunning] at hadvance
  by_cases hdone : ∃ o, code' = .done o
  · obtain ⟨o, rfl⟩ := hdone
    obtain ⟨u', hended, hnoted, -⟩ := Sim.advance_blocking j job hpolled
    obtain ⟨rfl, rfl⟩ : .finished = r ∧ u' = u := Prod.ext_iff.mp (hended.symm.trans hadvance)
    have hwith := Sim.runTask_over htask haborted hrun
    obtain ⟨t', htask', hrunning'⟩ := hwith.task
    refine .ended t' htask' hrunning' (hcode.runs hgoes hpolled) ?_ ?_
    · simp only [List.map_append, List.map_cons, List.map_nil]
    · rw [hwith.done, hnoted, List.lookup_cons_self]
  · have hgoes' (o : Outcome JobResult) (ho : code' = .done o) : False := hdone ⟨o, ho⟩
    obtain ⟨rfl, rfl⟩ : .blocking job code' = r ∧ v = u :=
      Prod.ext_iff.mp ((Sim.advance_blocking_goes hpolled hgoes').symm.trans hadvance)
    have hnone' : v.blockingDone.lookup j = none := by
      rw [hleft.done]
      exact hnone
    rcases Sim.runTask_advanced htask haborted hrun with
      ⟨hkept, hwith⟩ | ⟨hflagged, x, hwith, hover⟩
    · rw [hkept, Bool.and_false]
      obtain ⟨t', htask', hrunning'⟩ := hwith.task
      refine .running t' htask' hrunning' (hcode.snoc hpolled) hgoes' ?_
      rw [hwith.done, hnone']
    · rw [hflagged]
      refine .of_cancel (u := x) ?_ hover
      rw [hwith.done, hnone']

end WorkLife

/-- Work is handed to a task that was not there before. -/
theorem task_ne_spawnBlocking (ht : w.tasks[i]? = some t) :
    i ≠ ((Sim.spawnBlocking job work).run w).1 := by
  have hborrowed := (Sim.leaves_updatePool (·.borrowToken job) w).toUntouched
  obtain ⟨t', ht', -⟩ := hborrowed.tasks i t ht
  obtain ⟨hlt, -⟩ := Array.getElem?_eq_some_iff.mp ht'
  exact Nat.ne_of_lt hlt

/-- Every part is a part of some turn. -/
theorem Parts.exists_turn {limit : Option Duration} {body : JobBody} {f : Future .job}
    (h : Parts limit job body f own turns) {part : World × World} (hpart : part ∈ own) :
    ∃ turn ∈ turns, Within part turn := by
  obtain ⟨-, hwithin, -⟩ := h
  induction hwithin with
  | nil => cases hpart
  | @cons part' turn own turns hhead _ ih =>
      rcases List.mem_cons.mp hpart with rfl | hrest
      · exact ⟨turn, List.mem_cons_self, hhead⟩
      · obtain ⟨turn', hturn', hwithin⟩ := ih hrest
        exact ⟨turn', List.mem_cons_of_mem turn hturn', hwithin⟩

end Simulation

namespace Scenario

variable {s : Scenario} {i j : Nat} {job : JobId} {work : Work} {w w' : World}
  {turns own : List (World × World)} {cut : Bool} {t : Simulation.Task}

/-- A task that is not over has nothing noted about the end of its work. -/
theorem Leads.lookup_eq_none (h : Leads s.start w) (htask : w.tasks[j]? = some t)
    (hgoes : t.running ≠ .finished) : w.blockingDone.lookup j = none := by
  cases hended : w.blockingDone.lookup j with
  | none => rfl
  | some o =>
      obtain ⟨t', htask', hover⟩ := (h.remembers noted_start).noted j o hended
      cases htask.symm.trans htask'
      exact absurd hover hgoes

/-- From when it was handed to its task on, blocking work has a life. -/
theorem LeadsIn.workLife (hreached : Leads s.start w) (htask : w.tasks[j]? = some t)
    (hrunning : t.running = .blocking job (.begin (.work job work)))
    (h : LeadsIn j w turns cut w') : WorkLife j job work turns cut w' := by
  refine h.carries ?start ?spared ?aborted ?advanced
  case start =>
    refine .running t htask hrunning (.refl _) (fun o h => by cases h) ?_
    exact hreached.lookup_eq_none htask fun hover => by cases hrunning.symm.trans hover
  case spared => exact fun _ _ hspared hlife => hlife.spared hspared
  case aborted =>
    intro turns cut t v x v' _ _ hturn haborted hlife
    obtain ⟨rfl, code, hruns, -, -, hnone⟩ := hlife.of_hasTurn hturn
    have hwith := Sim.runTask_aborted hturn.task haborted
    rw [hruns] at hwith
    rw [hturn.run]
    exact .of_cancel (u := x.entered j t) hnone hwith
  case advanced =>
    intro turns cut t v x v' r u _ _ hturn haborted hadvance hlife
    obtain ⟨rfl, code, hruns, hcode, hgoes, hnone⟩ := hlife.of_hasTurn hturn
    rw [hturn.run, Bool.false_or]
    exact .advance hturn.task hruns haborted hcode hgoes hnone hadvance

/-- On the way from one world to another, this blocking work was handed to a task of its own, and
the only run that it had in the turns of that task has come to this. -/
def WorkRan (job : JobId) (work : Work) (w w' : World) (o : Outcome JobResult) : Prop :=
  ∃ v j t turns own, Leads w v ∧ v.tasks[j]? = some t ∧
    t.running = .blocking job (.begin (.work job work)) ∧ LeadsIn j v turns false w' ∧
    own.map Prod.fst = turns.map Prod.fst ∧ Runs (.begin (.work job work)) own o

/-- The body of a blocking job returns what its work has come to. -/
theorem LeadsIn.workRan (hreached : Leads s.start w) (h : LeadsIn i w turns cut w')
    {limit : Option Duration} {f : Future .job} {later : List (World × World)}
    (hparts : Parts limit job (.blocking work) f own later) (hlater : later ⊆ turns)
    {o : Outcome JobResult} (hbody : Runs (.begin (.body job (.blocking work))) own o) :
    ∃ ended, WorkRan job work w w' ended ∧ o = .returned (Sim.blockingResult ended) := by
  obtain ⟨first, hfirst, hhanded, part, hpart, ended, hended, ho⟩ := runs_blocking_handed hbody
  have hcreated := spawnBlocking_task job work first.1
  obtain ⟨turn, hturn, hwithin⟩ := hparts.exists_turn hfirst
  obtain ⟨turn', hturn', hwithin'⟩ := hparts.exists_turn hpart
  have hbetween := h.between turn (hlater hturn)
  obtain ⟨y, hy, hyleads, hdone⟩ := (h.between turn' (hlater hturn')).before
  obtain ⟨x, hx, hxleads, hspared⟩ := hbetween.after
  have hother : i ≠ ((Sim.spawnBlocking job work).run first.1).1 := by
    obtain ⟨t, ht⟩ := hbetween.task
    obtain ⟨t', ht', -⟩ := hwithin.before.untouched.tasks i t ht
    exact task_ne_spawnBlocking ht'
  generalize ((Sim.spawnBlocking job work).run first.1).1 = j at hcreated hended hother
  -- The task of the work is there when the turn is over in which the body was called.
  obtain ⟨t, ht, hrunning⟩ := (hhanded.trans hwithin.after).tasks j _ hcreated
  obtain ⟨t', ht', hrunning'⟩ := (hspared j hother).running t ht
  have hfresh := hrunning'.trans hrunning
  obtain ⟨turns', cut', hleadsIn⟩ := hxleads.leadsIn j
  have hnoted : w'.blockingDone.lookup j = some ended := by
    refine (hreached.trans hy).blockingDone_onward hyleads ?_
    rw [← hdone, ← hwithin'.before.untouched.done]
    exact hended
  have hlife := hleadsIn.workLife (hreached.trans hx) ht' hfresh
  cases hlife with
  | running _ _ _ _ _ hnone => cases hnone.symm.trans hnoted
  | takenAway _ _ _ hnone => cases hnone.symm.trans hnoted
  | @ended own' ended' _ t'' _ _ hruns hbegins hlookup =>
      cases hlookup.symm.trans hnoted
      exact ⟨ended, ⟨x, j, t', turns', own', hx, ht', hfresh, hleadsIn, hbegins, hruns⟩, ho⟩

end Scenario

end EventHub
