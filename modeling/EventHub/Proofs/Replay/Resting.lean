import EventHub.Proofs.Replay.Meanwhile
import EventHub.Proofs.Replay.Reach

/-!
A task at rest. Between two turns of its own the others go on in any order: the script hands in
steps, other tasks take their turns, and time passes. None of that touches what the task holds.
-/

namespace EventHub.Simulation

open EventHub.Script

/-- What may happen from one world to another without a turn of task `i`. -/
inductive SitsOut (i : Nat) (w : World) : World → Prop
  | refl : SitsOut i w w
  | handIn (step : Step) {w' : World} (h : SitsOut i w w') :
      SitsOut i w ((Scenario.handIn step).run w').2
  | turn (j : Nat) (hother : j ≠ i) {w' : World} (h : SitsOut i w w') :
      SitsOut i w ((Sim.runTask j).run w').2
  | look {w' : World} (h : SitsOut i w w') : SitsOut i w (Sim.lookAround.run w').2
  | clock {w' : World} (h : SitsOut i w w') : SitsOut i w (Sim.moveClock.run w').2
  /-- It is found out whose turn it is. -/
  | choose (ready blockingQueue : List Nat) (streak : Nat) (blockingActive : Option Nat)
      {w' : World} (h : SitsOut i w w') :
      SitsOut i w { w' with ready, streak, blockingQueue, blockingActive }

/-- Task `i` is put down with what it runs, and is taken up again some time. -/
def Rests (i : Nat) (r : Running) (v w : World) : Prop :=
  ∃ v' t, SitsOut i (((Sim.setTask i fun t => { t with running := r }) >>= fun _ =>
    Sim.endTurn i).run v).2 v' ∧ v'.tasks[i]? = some t ∧ w = v'.entered i t

/-- Task `i` goes on with what it runs, at once or after a rest. -/
def Resumes (i : Nat) (r : Running) (v w : World) : Prop := w = v ∨ Rests i r v w

variable {k i : Nat} {x : Traffic Action} {v w w' : World} {r : Running}

/-- Whoever runs next, it is no turn of task `i`, or it is its next turn. -/
theorem SitsOut.runNext (h : SitsOut i w w') :
    SitsOut i w (Sim.runNext.run w').2 ∨
      ∃ v, SitsOut i w v ∧ (Sim.runNext.run w').2 = ((Sim.runTask i).run v).2 := by
  have hrun (j : Nat) {v : World} (hv : SitsOut i w v) :
      SitsOut i w ((Sim.runTask j).run v).2 ∨
        ∃ v', SitsOut i w v' ∧ ((Sim.runTask j).run v).2 = ((Sim.runTask i).run v').2 := by
    by_cases hj : j = i
    · subst hj
      exact Or.inr ⟨v, hv, rfl⟩
    · exact Or.inl (.turn j hj hv)
  have hnext := Sim.runsNext w'
  generalize w'.nextTurn? = turn, (Sim.runNext.run w').2 = u at hnext ⊢
  cases hnext with
  | turn id ready blockingQueue streak blockingActive =>
      exact hrun id (h.choose ready blockingQueue streak blockingActive)
  | look => exact Or.inl h.look
  | rest ready blockingQueue streak blockingActive =>
      exact Or.inl (h.choose ready blockingQueue streak blockingActive)

end EventHub.Simulation
