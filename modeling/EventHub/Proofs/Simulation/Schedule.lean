import EventHub.Proofs.Simulation.Turns
import EventHub.Simulation.Schedule

/-!
The turn of a task, in its parts. The turn is entered, the task goes on as far as it
comes, what it has come to is put down, and the turn ends. Between two turns it is found
out who has the next one, and that changes nothing but the queues.
-/

namespace EventHub.Simulation

/-- The world in which a turn of a task begins. -/
def World.entered (w : World) (id : Nat) (t : Task) : World :=
  { w with
    tasks := w.tasks.set! id { t with isQueued := false }
    current := id
    isRewoken := false
    allowance :=
      match t.running with
      | .blocking .. => none
      | _ => some Sim.turnAllowance }

/-- The task that has the next turn, and the world in which it has it. -/
def World.nextTurn? (w : World) : Option (Nat × World) :=
  if w.streak ≥ Sim.passingInterval then none
  else
    match w.ready with
    | id :: rest => some (id, { w with ready := rest, streak := w.streak + 1 })
    | [] =>
      if !w.deferred.isEmpty || !w.raised.isEmpty then none
      else
        match w.blockingActive, w.blockingQueue with
        | some id, _ =>
          if (w.tasks[id]?).any Task.isQueued then some (id, { w with streak := 0 }) else none
        | none, id :: rest =>
          some (id, { w with streak := 0, blockingActive := some id, blockingQueue := rest })
        | none, [] => none

/-- The world when the queues have become these, and nothing else has changed. -/
def World.choosing (w : World) (ready blockingQueue : List Nat) (streak : Nat)
    (blockingActive : Option Nat) : World :=
  { w with ready, streak, blockingQueue, blockingActive }

namespace Sim

/-- What the task has come to is put down, and taken away if the task was aborted. -/
def putDown (id : Nat) (running : Running) : Sim Unit := do
  setTask id fun t => { t with running }
  if ((← get).tasks[id]?).any Task.isAborted then finishTask id running

def ownTurn (id : Nat) (t : Task) : Sim Unit :=
  if t.isAborted then finishTask id t.running else advance id t.running >>= putDown id

def endTurn (id : Nat) : Sim Unit := do
  let isRewoken := (← get).isRewoken
  modify fun w => { w with current := 0 }
  if isRewoken then wakeTask id

variable {id : Nat} {w : World} {t : Task}

theorem setTask_run (htask : w.tasks[id]? = some t) (change : Task → Task) :
    (setTask id change).run w = ((), { w with tasks := w.tasks.set! id (change t) }) := by
  have hrun : (setTask id change).run w = ((), ((setTask id change).run w).2) := rfl
  rw [hrun, setTask, run_modify]
  simp only [htask]

/-- What is done only sometimes is done before the rest. -/
theorem ite_bind_run {c : Prop} [Decidable c] (x next : Sim Unit) (w : World) :
    (if c then x >>= fun _ => next else next).run w =
      ((if c then x else pure ()) >>= fun _ => next).run w := by
  split <;> rfl

theorem runTask_run_none (hnone : w.tasks[id]? = none) : (runTask id).run w = ((), w) := by
  have hget : (get : Sim World).run w = (w, w) := rfl
  rw [runTask, run_bind, hget]
  simp only [hnone]
  rfl

theorem runTask_run (htask : w.tasks[id]? = some t) :
    (runTask id).run w = (ownTurn id t >>= fun _ => endTurn id).run (w.entered id t) := by
  have hget : (get : Sim World).run w = (w, w) := rfl
  rw [runTask, run_bind, hget]
  simp only [htask, run_bind, setTask_run htask]
  rw [ownTurn]
  split
  · rfl
  · exact ite_bind_run _ _ _

/-- What comes of a world in which it has been found out who has the next turn: he has it, or the
executor looks around, or nothing is left to be done. -/
inductive RunsNext (w : World) : Option (Nat × World) → World → Prop
  | turn (id : Nat) (ready blockingQueue : List Nat) (streak : Nat) (blockingActive : Option Nat) :
      RunsNext w (some (id, w.choosing ready blockingQueue streak blockingActive))
        ((runTask id).run (w.choosing ready blockingQueue streak blockingActive)).2
  | look : RunsNext w none (lookAround.run w).2
  | rest (ready blockingQueue : List Nat) (streak : Nat) (blockingActive : Option Nat) :
      RunsNext w none (w.choosing ready blockingQueue streak blockingActive)

theorem runsNext (w : World) : RunsNext w w.nextTurn? (runNext.run w).2 := by
  have hget : (get : Sim World).run w = (w, w) := rfl
  rw [runNext, run_bind, hget, World.nextTurn?]
  dsimp only
  by_cases hpassing : w.streak ≥ passingInterval
  · rw [if_pos hpassing, if_pos hpassing]
    exact .look
  rw [if_neg hpassing, if_neg hpassing]
  cases w.ready with
  | cons id rest => exact .turn id rest w.blockingQueue (w.streak + 1) w.blockingActive
  | nil =>
      dsimp only
      by_cases hwaiting : (!w.deferred.isEmpty || !w.raised.isEmpty) = true
      · rw [if_pos hwaiting, if_pos hwaiting]
        exact .look
      rw [if_neg hwaiting, if_neg hwaiting]
      cases w.blockingActive with
      | some id =>
          by_cases hqueued : (w.tasks[id]?).any Task.isQueued = true
          · simp only [hqueued, if_true]
            exact .turn id [] w.blockingQueue 0 (some id)
          · simp only [hqueued]
            exact .rest [] w.blockingQueue 0 (some id)
      | none =>
          cases w.blockingQueue with
          | cons id rest => exact .turn id [] rest 0 (some id)
          | nil => exact .rest [] [] 0 none

end Sim

end EventHub.Simulation
