import EventHub.Proofs.Events.Sequence

/-!
The turns that one task has. Whoever else has a turn, or whatever else goes on in the meantime,
leaves alone what the task runs and what was noted about the end of its work. In a turn of its own
the task goes on, unless it is over or is taken away.
-/

namespace EventHub

open EventHub.Script EventHub.Simulation

namespace Simulation

variable {w w' w'' : World} {i j : Nat} {t : Task} {r : Running}

/-! ### Turns of others -/

/-- The task runs what it ran, and what is noted about the end of its work is as it was. -/
structure Spared (i : Nat) (w w' : World) : Prop where
  running : ∀ t : Task, w.tasks[i]? = some t →
    ∃ t', w'.tasks[i]? = some t' ∧ t'.running = t.running
  done : w'.blockingDone.lookup i = w.blockingDone.lookup i

namespace Spared

theorem refl (i : Nat) (w : World) : Spared i w w := ⟨fun t ht => ⟨t, ht, rfl⟩, rfl⟩

theorem trans (h : Spared i w w') (h' : Spared i w' w'') : Spared i w w'' := by
  refine ⟨fun t ht => ?_, h'.done.trans h.done⟩
  obtain ⟨t', ht', hrunning⟩ := h.running t ht
  obtain ⟨t'', ht'', hrunning'⟩ := h'.running t' ht'
  exact ⟨t'', ht'', hrunning'.trans hrunning⟩

theorem of_untouched (h : Untouched w w') : Spared i w w' :=
  ⟨h.tasks i, by rw [h.done]⟩

/-- What another task has come to. -/
theorem of_comes {r' : Running} (h : Comes j r w r' w') (hj : j ≠ i) : Spared i w w' := by
  refine ⟨h.tasks i, ?_⟩
  rcases h.done with hdone | ⟨-, -, ended, hdone⟩
  · rw [hdone]
  · rw [hdone, List.lookup_cons, beq_false_of_ne (Ne.symm hj)]

theorem setTask (hj : j ≠ i) (change : Task → Task) (w : World) :
    Spared i w ((Sim.setTask j change).run w).2 := by
  rw [Sim.setTask, Sim.run_modify]
  split
  · exact .refl i w
  · exact ⟨fun t ht => ⟨t, (getElem?_set_other hj _).trans ht, rfl⟩, rfl⟩

theorem finishTask (hj : j ≠ i) (r : Running) (w : World) :
    Spared i w ((Sim.finishTask j r).run w).2 :=
  (of_untouched (Sim.leaves_cancel j r w).toUntouched).trans (setTask hj _ _)

theorem putDown (hj : j ≠ i) (r : Running) (w : World) :
    Spared i w ((Sim.putDown j r).run w).2 := by
  rw [Sim.putDown, Sim.run_bind, Sim.run_bind]
  split
  · exact (setTask hj _ w).trans (finishTask hj r _)
  · exact setTask hj _ w

/-- The turn of another task. -/
theorem runTask (hj : j ≠ i) (w : World) : Spared i w ((Sim.runTask j).run w).2 := by
  cases ht : w.tasks[j]? with
  | none =>
      rw [Sim.runTask_run_none ht]
      exact .refl i w
  | some t =>
      have henter : Spared i w (w.entered j t) :=
        of_untouched (Sim.uneventful_entered ht).toUntouched
      rw [Sim.runTask_run ht, Sim.run_bind]
      refine (henter.trans ?_).trans (of_untouched (Sim.leaves_endTurn j _).toUntouched)
      rw [Sim.ownTurn]
      split
      · exact finishTask hj t.running _
      · rw [Sim.run_bind]
        exact (of_comes (Sim.comes_advance j t.running _) hj).trans (putDown hj _ _)

end Spared

/-! ### Turns of its own -/

def Running.isOver : Running → Bool
  | .finished => true
  | _ => false

theorem Running.isOver_eq_true_iff : r.isOver = true ↔ r = .finished := by
  cases r <;> simp [isOver]

/-- The task was aborted, and has not seen that yet. -/
def World.isAborted (w : World) (i : Nat) : Bool := (w.tasks[i]?).any Task.isAborted

/-- The task has the next turn, and is not over: the world in which it has it, and the task. -/
def World.takesTurn? (w : World) (i : Nat) : Option (World × Task) :=
  match w.nextTurn? with
  | none => none
  | some (j, v) =>
    if j = i then (v.tasks[i]?.filter fun t => !t.running.isOver).map fun t => (v, t) else none

/-- The worlds in which the next turn begins and ends, if it is the task's and the task goes on. -/
def World.turnsOf (w : World) (i : Nat) : List (World × World) :=
  match w.takesTurn? i with
  | none => []
  | some (v, t) =>
    if t.isAborted then []
    else [(v.entered i t, ((Sim.advance i t.running).run (v.entered i t)).2)]

/-- The task is taken away in the next turn: it was aborted before, or while it went on without
coming to its end. -/
def World.takesAway (w : World) (i : Nat) : Bool :=
  match w.takesTurn? i with
  | none => false
  | some (v, t) =>
    let advanced := (Sim.advance i t.running).run (v.entered i t)
    t.isAborted || (!advanced.1.isOver && advanced.2.isAborted i)

/-- It has been found out whose turn it is. -/
structure Chosen (w v : World) : Prop where
  tasks : v.tasks = w.tasks
  done : v.blockingDone = w.blockingDone
  stores : v.stores = w.stores

theorem Chosen.spared (h : Chosen w w') (i : Nat) : Spared i w w' :=
  ⟨fun t ht => ⟨t, h.tasks ▸ ht, rfl⟩, by rw [h.done]⟩

/-- The task has the turn that leads from one world to the other, and was not over before. -/
structure HasTurn (i : Nat) (t : Task) (w v w' : World) : Prop where
  chosen : Chosen w v
  task : v.tasks[i]? = some t
  goes : t.running ≠ .finished
  run : w' = ((Sim.runTask i).run v).2

/-- The task is left with this. The pool and what is noted about the ends of work are as they
were. -/
structure LeftWith (i : Nat) (r : Running) (w w' : World) : Prop where
  task : ∃ t, w'.tasks[i]? = some t ∧ t.running = r
  pool : w'.pool = w.pool
  done : w'.blockingDone = w.blockingDone

/-! ### What becomes of a task in its turn -/

theorem Sim.aside_endTurn (id : Nat) (w : World) : Aside w ((Sim.endTurn id).run w).2 := by
  have hget : (get : Sim World).run w = (w, w) := rfl
  have hreset : Aside w { w with current := 0 } := .of_eq rfl rfl
  rw [Sim.endTurn, Sim.run_bind, hget, Sim.run_bind, Sim.run_modify]
  split
  · exact hreset.trans (Sim.aside_wakeTask id _)
  · exact hreset

theorem LeftWith.endTurn (h : LeftWith i r w w') : LeftWith i r w ((Sim.endTurn i).run w').2 := by
  obtain ⟨t, ht, hrunning⟩ := h.task
  have hleft := (Sim.leaves_endTurn i w').toUntouched
  obtain ⟨t', ht', hrunning'⟩ := hleft.tasks i t ht
  refine ⟨⟨t', ht', hrunning'.trans hrunning⟩, ?_, hleft.done.trans h.done⟩
  exact (congrArg Stores.pool (Sim.aside_endTurn i w').stores).trans h.pool

namespace Sim

theorem leftWith_setTask (ht : w.tasks[i]? = some t) (r : Running) :
    LeftWith i r w ((setTask i fun t => { t with running := r }).run w).2 := by
  rw [setTask_run ht]
  exact ⟨⟨_, getElem?_set_self ht _, rfl⟩, rfl, rfl⟩

/-- A task that is taken away is over when it has been cancelled. -/
theorem leftWith_finishTask (ht : w.tasks[i]? = some t) (r : Running) :
    LeftWith i .finished ((cancel i r).run w).2 ((finishTask i r).run w).2 := by
  obtain ⟨t', ht', -⟩ := (leaves_cancel i r w).toUntouched.tasks i t ht
  exact leftWith_setTask ht' .finished

/-- What a task has come to is put down, and it is taken away if it was aborted meanwhile. -/
theorem leftWith_putDown (ht : w.tasks[i]? = some t) (r : Running) :
    (w.isAborted i = false ∧ LeftWith i r w ((putDown i r).run w).2) ∨
      (w.isAborted i = true ∧ ∃ x, LeftWith i r w x ∧
        LeftWith i .finished ((cancel i r).run x).2 ((putDown i r).run w).2) := by
  have hput := leftWith_setTask ht r
  have hflag : (((setTask i fun t => { t with running := r }).run w).2.tasks[i]?).any
      Task.isAborted = w.isAborted i := by
    rw [setTask_run ht, World.isAborted, ht]
    dsimp only
    rw [getElem?_set_self ht]
    rfl
  have hget (w : World) : (get : Sim World).run w = (w, w) := rfl
  rw [putDown, run_bind, run_bind, hget]
  dsimp only
  rw [hflag]
  cases haborted : w.isAborted i with
  | false => exact .inl ⟨rfl, hput⟩
  | true =>
      obtain ⟨t', ht', -⟩ := hput.task
      exact .inr ⟨rfl, _, hput, leftWith_finishTask ht' r⟩

/-- The turn of a task that was aborted before. -/
theorem runTask_aborted (ht : w.tasks[i]? = some t) (haborted : t.isAborted = true) :
    LeftWith i .finished ((cancel i t.running).run (w.entered i t)).2 ((runTask i).run w).2 := by
  have hself : (w.entered i t).tasks[i]? = some { t with isQueued := false } :=
    getElem?_set_self ht _
  rw [runTask_run ht, run_bind, ownTurn, if_pos haborted]
  exact (leftWith_finishTask hself t.running).endTurn

/-- The turn of a task that goes on. -/
theorem runTask_advanced (ht : w.tasks[i]? = some t) (haborted : t.isAborted = false)
    {u : World} (hrun : (advance i t.running).run (w.entered i t) = (r, u)) :
    (u.isAborted i = false ∧ LeftWith i r u ((runTask i).run w).2) ∨
      (u.isAborted i = true ∧ ∃ x, LeftWith i r u x ∧
        LeftWith i .finished ((cancel i r).run x).2 ((runTask i).run w).2) := by
  have hself : (w.entered i t).tasks[i]? = some { t with isQueued := false } :=
    getElem?_set_self ht _
  have hcomes := comes_advance i t.running (w.entered i t)
  rw [hrun] at hcomes
  obtain ⟨t', ht', -⟩ := hcomes.tasks i _ hself
  rw [runTask_run ht, run_bind, ownTurn, haborted, if_neg Bool.false_ne_true, run_bind, hrun]
  rcases leftWith_putDown ht' r with ⟨hkept, hput⟩ | ⟨hflagged, x, hput, hover⟩
  · exact .inl ⟨hkept, hput.endTurn⟩
  · exact .inr ⟨hflagged, x, hput, hover.endTurn⟩

/-- What follows in the turn spares the other tasks. -/
theorem spared_advanced (ht : w.tasks[i]? = some t) (haborted : t.isAborted = false) {u : World}
    (hrun : (advance i t.running).run (w.entered i t) = (r, u)) (hj : i ≠ j) :
    Spared j u ((runTask i).run w).2 := by
  rw [runTask_run ht, run_bind, ownTurn, haborted, if_neg Bool.false_ne_true, run_bind, hrun]
  exact (Spared.putDown hj r u).trans (.of_untouched (leaves_endTurn i _).toUntouched)

/-- The turn of a task that comes to its end. -/
theorem runTask_over (ht : w.tasks[i]? = some t) (haborted : t.isAborted = false) {u : World}
    (hrun : (advance i t.running).run (w.entered i t) = (.finished, u)) :
    LeftWith i .finished u ((runTask i).run w).2 := by
  rcases runTask_advanced ht haborted hrun with ⟨-, hwith⟩ | ⟨-, x, hwith, hover⟩
  · exact hwith
  · exact ⟨hover.task, hover.pool.trans hwith.pool, hover.done.trans hwith.done⟩

/-- What runs next is the turn of a task, or no turn. -/
theorem runNext_run (w : World) :
    (∃ j v, w.nextTurn? = some (j, v) ∧ Chosen w v ∧ (runNext.run w).2 = ((runTask j).run v).2) ∨
      (w.nextTurn? = none ∧ Untouched w (runNext.run w).2 ∧
        Proceeds Pool.Move.IsOpen none w (runNext.run w).2) := by
  have hnext := runsNext w
  generalize w.nextTurn? = turn, (runNext.run w).2 = w' at hnext ⊢
  cases hnext with
  | turn id => exact .inl ⟨id, _, rfl, ⟨rfl, rfl, rfl⟩, rfl⟩
  | look => exact .inr ⟨rfl, (leaves_lookAround w).toUntouched, does_lookAround w⟩
  | rest => exact .inr ⟨rfl, ⟨⟨rfl, fun i t ht => ⟨t, ht, rfl⟩⟩, rfl⟩, .beside rfl rfl⟩

/-- A task that is over stays so in whatever turn it has. -/
theorem spared_runTask_finished (ht : w.tasks[i]? = some t) (hover : t.running = .finished) :
    Spared i w ((runTask i).run w).2 := by
  have hwith {u : World} (h : LeftWith i .finished u ((runTask i).run w).2)
      (hu : u.blockingDone = w.blockingDone) : Spared i w ((runTask i).run w).2 := by
    refine ⟨fun t' ht' => ?_, by rw [h.done, hu]⟩
    cases ht.symm.trans ht'
    exact hover ▸ h.task
  cases haborted : t.isAborted with
  | true =>
      have h := runTask_aborted ht haborted
      rw [hover] at h
      exact hwith h rfl
  | false =>
      have hadvance : (advance i t.running).run (w.entered i t) = (.finished, w.entered i t) := by
        rw [hover]
        rfl
      exact hwith (runTask_over ht haborted hadvance) rfl

/-- The next turn is the task's own, or it spares the task. -/
theorem runNext_own_or_spared (i : Nat) (w : World) :
    (∃ v t, w.takesTurn? i = some (v, t) ∧ HasTurn i t w v (runNext.run w).2) ∨
      (w.takesTurn? i = none ∧ Spared i w (runNext.run w).2) := by
  rcases runNext_run w with ⟨j, v, hnext, hchosen, hrun⟩ | ⟨hnone, huntouched, -⟩
  · rw [World.takesTurn?, hnext]
    by_cases hj : j = i
    · subst hj
      cases ht : v.tasks[j]? with
      | none =>
          rw [hrun, runTask_run_none ht]
          simp only [if_true, ht]
          exact .inr ⟨rfl, hchosen.spared j⟩
      | some t =>
          by_cases hover : t.running = .finished
          · right
            refine ⟨?_, hrun ▸ (hchosen.spared j).trans (spared_runTask_finished ht hover)⟩
            simp [ht, Option.filter, hover, Running.isOver]
          · left
            have hgoes : t.running.isOver = false :=
              eq_false_of_ne_true fun h => hover (Running.isOver_eq_true_iff.mp h)
            refine ⟨v, t, ?_, hchosen, ht, hover, hrun⟩
            simp [ht, Option.filter, hgoes]
    · right
      exact ⟨if_neg hj, hrun ▸ (hchosen.spared i).trans (.runTask hj v)⟩
  · right
    rw [World.takesTurn?, hnone]
    exact ⟨rfl, .of_untouched huntouched⟩

end Sim

end Simulation

namespace Scenario

/-- What a world comes to, turn by turn, with the turns that one task has on the way, and whether
it is taken away. -/
inductive LeadsIn (i : Nat) (w : World) : List (World × World) → Bool → World → Prop
  | refl : LeadsIn i w [] false w
  | handIn (step : Step) {turns : List (World × World)} {cut : Bool} {w' : World}
      (h : LeadsIn i w turns cut w') : LeadsIn i w turns cut ((handIn step).run w').2
  | next {turns : List (World × World)} {cut : Bool} {w' : World}
      (h : LeadsIn i w turns cut w') : LeadsIn i w (turns ++ w'.turnsOf i) (cut || w'.takesAway i)
        (Sim.runNext.run w').2
  | clock {turns : List (World × World)} {cut : Bool} {w' : World}
      (h : LeadsIn i w turns cut w') : LeadsIn i w turns cut (Sim.moveClock.run w').2

variable {i : Nat} {w w' w'' : World} {turns : List (World × World)} {cut : Bool}

theorem Leads.trans (h : Leads w w') (h' : Leads w' w'') : Leads w w'' := by
  induction h' with
  | refl => exact h
  | handIn step _ ih => exact ih.handIn step
  | next _ ih => exact ih.next
  | clock _ ih => exact ih.clock

theorem LeadsIn.leads (h : LeadsIn i w turns cut w') : Leads w w' := by
  induction h with
  | refl => exact .refl
  | handIn step _ ih => exact ih.handIn step
  | next _ ih => exact ih.next
  | clock _ ih => exact ih.clock

/-- However a world is reached, the task has some turns on the way. -/
theorem Leads.leadsIn (h : Leads w w') (i : Nat) : ∃ turns cut, LeadsIn i w turns cut w' := by
  induction h with
  | refl => exact ⟨[], false, .refl⟩
  | handIn step _ ih =>
      obtain ⟨turns, cut, ih⟩ := ih
      exact ⟨turns, cut, ih.handIn step⟩
  | next _ ih =>
      obtain ⟨turns, cut, ih⟩ := ih
      exact ⟨_, _, ih.next⟩
  | clock _ ih =>
      obtain ⟨turns, cut, ih⟩ := ih
      exact ⟨turns, cut, ih.clock⟩

/-- What holds when nothing has happened yet, is left alone by whatever spares the task, and is
kept by the turns that it has, holds on the whole way. -/
theorem LeadsIn.carries {P : List (World × World) → Bool → World → Prop} (hstart : P [] false w)
    (hspared : ∀ {turns cut v v'}, Leads w v → Leads v v' → Spared i v v' →
      P turns cut v → P turns cut v')
    (haborted : ∀ {turns cut t v x v'}, Leads w v → Leads v v' → HasTurn i t v x v' →
      t.isAborted = true → P turns cut v → P turns true v')
    (hadvanced : ∀ {turns cut t v x v' r u}, Leads w v → Leads v v' → HasTurn i t v x v' →
      t.isAborted = false → (Sim.advance i t.running).run (x.entered i t) = (r, u) →
      P turns cut v → P (turns ++ [(x.entered i t, u)]) (cut || (!r.isOver && u.isAborted i)) v')
    (h : LeadsIn i w turns cut w') : P turns cut w' := by
  induction h with
  | refl => exact hstart
  | handIn step h ih =>
      have hleaves : Sim.Leaves (Scenario.handIn step) :=
        .bind (.modify fun _ => rfl) fun _ => .bind (Sim.leaves_spawn _) fun _ => .pure _
      exact hspared h.leads (Leads.refl.handIn step) (.of_untouched (hleaves _).toUntouched) ih
  | clock h ih =>
      exact hspared h.leads Leads.refl.clock
        (.of_untouched (Sim.leaves_moveClock _).toUntouched) ih
  | @next turns cut w' h ih =>
      have hgoes : Leads w' (Sim.runNext.run w').2 := Leads.refl.next
      rcases Sim.runNext_own_or_spared i w' with ⟨v, t, htakes, hturn⟩ | ⟨hnone, hspares⟩
      · rw [World.turnsOf, World.takesAway, htakes]
        dsimp only
        cases hflag : t.isAborted with
        | true =>
            simp only [if_true, List.append_nil, Bool.true_or, Bool.or_true]
            exact haborted h.leads hgoes hturn hflag ih
        | false => exact hadvanced h.leads hgoes hturn hflag rfl ih
      · simp only [World.turnsOf, World.takesAway, hnone, List.append_nil, Bool.or_false]
        exact hspared h.leads hgoes hspares ih

/-- A turn of a task comes between two worlds of its way. -/
structure Between (i : Nat) (w : World) (turn : World × World) (w' : World) : Prop where
  before : ∃ v, Leads w v ∧ Leads v w' ∧ turn.1.blockingDone = v.blockingDone
  task : ∃ t, turn.1.tasks[i]? = some t
  after : ∃ v, Leads w v ∧ Leads v w' ∧ ∀ j, i ≠ j → Spared j turn.2 v

theorem Between.onward {turn : World × World} (h : Between i w turn w') (hgoes : Leads w' w'') :
    Between i w turn w'' := by
  obtain ⟨⟨v, hv, hleads, hdone⟩, htask, u, hu, hleads', hspared⟩ := h
  exact ⟨⟨v, hv, hleads.trans hgoes, hdone⟩, htask, u, hu, hleads'.trans hgoes, hspared⟩

theorem LeadsIn.between (h : LeadsIn i w turns cut w') :
    ∀ turn ∈ turns, Between i w turn w' := by
  refine h.carries (P := fun turns _ v => ∀ turn ∈ turns, Between i w turn v) ?_ ?_ ?_ ?_
  · exact fun turn hturn => absurd hturn List.not_mem_nil
  · exact fun _ hgoes _ hall turn hturn => (hall turn hturn).onward hgoes
  · exact fun _ hgoes _ _ hall turn hturn => (hall turn hturn).onward hgoes
  · intro turns cut t v x v' r u hleads hgoes hturn haborted hrun hall turn hmem
    rcases List.mem_append.mp hmem with hbefore | hlast
    · exact (hall turn hbefore).onward hgoes
    · obtain rfl := List.mem_singleton.mp hlast
      refine ⟨⟨v, hleads, hgoes, hturn.chosen.done⟩, ⟨_, getElem?_set_self hturn.task _⟩, v',
        hleads.trans hgoes, .refl, fun j hj => ?_⟩
      rw [hturn.run]
      exact Sim.spared_advanced hturn.task haborted hrun hj

end Scenario

end EventHub
