import EventHub.Proofs.Jobs.History

/-!
Where jobs come from. A job that the pool of some world knows was submitted on the way there, and
there was a moment between two turns in which its task was there and had not begun.
-/

namespace EventHub

open EventHub.Script EventHub.Simulation

namespace Simulation

variable {i : Nat} {id : JobId} {w w' w'' : World} {t : Task} {r : Running}

/-- A job that has become known has a task that has not begun. -/
def Adds (w w' : World) : Prop :=
  ∀ id, (w'.pool.job? id).isSome = true → (w.pool.job? id).isSome = true ∨ w'.Awaiting id

/-- A job that has become known has a task that has not begun and is not this one. -/
def AddsBeside (i : Nat) (w w' : World) : Prop :=
  ∀ id, (w'.pool.job? id).isSome = true → (w.pool.job? id).isSome = true ∨
    ∃ (j : Nat) (task : Task) (body : JobBody), j ≠ i ∧ w'.tasks[j]? = some task ∧
      task.running = .job id (.begin (.task id body))

/-- The job of the task is known. -/
def KnowsJob (w : World) (t : Task) : Prop :=
  ∀ id, t.running.job? = some id → (w.pool.job? id).isSome = true

namespace AddsBeside

theorem adds (h : AddsBeside i w w') : Adds w w' := fun id hid =>
  (h id hid).imp_right fun ⟨j, task, body, _, htask, hrunning⟩ => ⟨j, task, body, htask, hrunning⟩

/-- The task itself was there before. -/
theorem of_proceeds {may : Pool.Move → Prop} {k : Option Nat} (h : Proceeds may k w w')
    (ht : w.tasks[i]? = some t) (hknows : KnowsJob w t) : AddsBeside i w w' := by
  intro id hid
  rcases h.added id hid with hknown | ⟨j, task, body, htask, hrunning⟩
  · exact Or.inl hknown
  · by_cases hj : j = i
    · subst hj
      obtain ⟨t', ht', hsame⟩ := h.kept j t ht
      cases ht'.symm.trans htask
      refine Or.inl (hknows id ?_)
      rw [← hsame, hrunning]
      rfl
    · exact Or.inr ⟨j, task, body, hj, htask, hrunning⟩

theorem of_pool (h : w'.pool = w.pool) : AddsBeside i w w' := by
  intro id hid
  rw [h] at hid
  exact Or.inl hid

theorem trans (h : AddsBeside i w w') (h' : AddsBeside i w' w'')
    (hspared : ∀ j, j ≠ i → Spared j w' w'') : AddsBeside i w w'' := by
  intro id hid
  rcases h' id hid with hknown | hadded
  · refine (h id hknown).imp_right fun ⟨j, task, body, hj, htask, hrunning⟩ => ?_
    obtain ⟨task', htask', hsame⟩ := (hspared j hj).running task htask
    exact ⟨j, task', body, hj, htask', hsame.trans hrunning⟩
  · exact Or.inr hadded

/-- The task is left with something else. -/
theorem setTask (h : AddsBeside i w w') (change : Task → Task) :
    AddsBeside i w ((Sim.setTask i change).run w').2 := by
  refine h.trans (.of_pool ?_) fun j hj => .setTask (Ne.symm hj) change w'
  rw [Sim.setTask, Sim.run_modify]
  split <;> rfl

end AddsBeside

namespace Sim

/-! ### One turn -/

theorem addsBeside_finishTask (ht : w.tasks[i]? = some t) (hknows : KnowsJob w t)
    (hjob : ∀ id, r.job? = some id → t.running.job? = some id) :
    AddsBeside i w ((finishTask i r).run w).2 := by
  have hcanceled := proceeds_cancel (w := w) (r := r) fun id hid => ⟨t, ht, hjob id hid⟩
  exact (AddsBeside.of_proceeds hcanceled ht hknows).setTask _

theorem addsBeside_ownTurn (h : InStep none w) (ht : w.tasks[i]? = some t) :
    AddsBeside i w ((ownTurn i t).run w).2 := by
  have hknows : KnowsJob w t := fun id => h.known i t id ht
  rw [ownTurn]
  split
  · exact addsBeside_finishTask ht hknows fun _ hid => hid
  · have hadvanced := advanced (h.stands i t (by simp) ht) fun id hid => ⟨t, ht, hid⟩
    rw [run_bind]
    generalize (advance i t.running).run w = result at hadvanced ⊢
    obtain ⟨r, u⟩ := result
    dsimp only at hadvanced ⊢
    obtain ⟨t', ht', hrunning⟩ := hadvanced.goes.kept i t ht
    have hput := (AddsBeside.of_proceeds hadvanced.goes ht hknows).setTask
      fun t => { t with running := r }
    have hset := setTask_run ht' fun t => { t with running := r }
    rw [putDown, run_bind, run_bind]
    split
    · have hself : ((setTask i fun t => { t with running := r }).run u).2.tasks[i]? =
          some { t' with running := r } := by
        rw [hset]
        exact getElem?_set_self ht' _
      have hleft := (hadvanced.goes.inStep h.enter).leave ht' hadvanced.stands
        (hrunning ▸ hadvanced.job)
      refine hput.trans (addsBeside_finishTask hself ?_ fun _ hid => hid) fun j hj => ?_
      · exact fun id => hleft.known i _ id hself
      · exact .finishTask (Ne.symm hj) r _
    · exact hput

theorem adds_runTask (h : InStep none w) (id : Nat) : Adds w ((runTask id).run w).2 := by
  cases ht : w.tasks[id]? with
  | none =>
      rw [runTask_run_none ht]
      exact fun _ => Or.inl
  | some t =>
      have hself : (w.entered id t).tasks[id]? = some { t with isQueued := false } :=
        getElem?_set_self ht _
      have hentered : InStep none (w.entered id t) := h.of_acts (.refl _) (.set_task ht rfl)
      have hown : AddsBeside id w ((ownTurn id { t with isQueued := false }).run
          (w.entered id t)).2 := addsBeside_ownTurn hentered hself
      rw [runTask_run ht, run_bind]
      refine (hown.trans (.of_pool ?_) fun j _ => .of_untouched ?_).adds
      · exact congrArg Stores.pool (aside_endTurn id _).stores
      · exact (leaves_endTurn id _).toUntouched

theorem adds_runNext (h : InStep none w) : Adds w (runNext.run w).2 := by
  rcases runNext_run w with ⟨j, v, -, hchosen, hrun⟩ | ⟨-, -, hgoes⟩
  · have hin : InStep none v := h.of_acts (.of_eq hchosen.stores) (.of_eq hchosen.tasks)
    have hpool : v.pool = w.pool := congrArg Stores.pool hchosen.stores
    intro id hid
    rw [hrun] at hid ⊢
    exact hpool ▸ adds_runTask hin j id hid
  · exact hgoes.added

end Sim

end Simulation

namespace Scenario

variable {s : Scenario} {id : JobId} {w w' : World}

/-- No job is known before the first step. -/
theorem pool_start (s : Scenario) : s.start.pool = Pool.new s.config := by
  rw [start]
  cases s.parser <;> rfl

/-- A job was submitted, and in some moment after that its task had not begun. -/
theorem Leads.origin (h : Leads s.start w) (hknown : (w.pool.job? id).isSome = true) :
    ∃ v, Leads s.start v ∧ Leads v w ∧ v.Awaiting id := by
  have hadds {w w' : World} (hadded : Adds w w') (h : Leads s.start w) (hgoes : Leads w w')
      (ih : (w.pool.job? id).isSome = true → ∃ v, Leads s.start v ∧ Leads v w ∧ v.Awaiting id)
      (hknown : (w'.pool.job? id).isSome = true) :
      ∃ v, Leads s.start v ∧ Leads v w' ∧ v.Awaiting id := by
    rcases hadded id hknown with hbefore | hawaiting
    · obtain ⟨v, hv, hleads, hawaiting⟩ := ih hbefore
      exact ⟨v, hv, hleads.trans hgoes, hawaiting⟩
    · exact ⟨w', h.trans hgoes, .refl, hawaiting⟩
  induction h with
  | refl =>
      rw [pool_start] at hknown
      cases hknown
  | handIn step h ih =>
      exact hadds (does_handIn step _).added h (Leads.refl.handIn step) ih hknown
  | next h ih =>
      exact hadds (Sim.adds_runNext (h.turns setUp_start.inStep).inStep) h Leads.refl.next ih hknown
  | clock h ih =>
      exact hadds (Sim.does_moveClock (k := none) _).added h Leads.refl.clock ih hknown

end Scenario

end EventHub
