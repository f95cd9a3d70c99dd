import EventHub.Proofs.Panics.Closures
import EventHub.Proofs.Replay.Resting

/-!
What the application starts by itself. It is told that before it is built, and nothing changes it
later. The event logs come first, then the services in the order in which they were told.
-/

namespace EventHub

open EventHub.Simulation

namespace Simulation

variable {i : Nat} {r : Running} {v w w' : World}

namespace Sim

variable {α β : Type}

/-- What the application starts by itself stays the same. -/
def KeepsPreset (m : Sim α) : Prop := ∀ w, (m.run w).2.preset = w.preset

theorem KeepsPreset.of_leaves {m : Sim α} (h : Leaves m) : KeepsPreset m := fun w => (h w).preset

theorem KeepsPreset.bind {m : Sim α} {f : α → Sim β} (hm : KeepsPreset m)
    (hf : ∀ v, KeepsPreset (f v)) : KeepsPreset (m >>= f) := by
  intro w
  rw [run_bind]
  exact (hf _ _).trans (hm w)

theorem keepsPreset_setTask (id : Nat) (change : Task → Task) :
    KeepsPreset (setTask id change) := by
  intro w
  rw [setTask, run_modify]
  split <;> rfl

theorem keepsPreset_finishTask (id : Nat) (r : Running) : KeepsPreset (finishTask id r) :=
  .bind (.of_leaves (leaves_cancel id r)) fun _ => keepsPreset_setTask id _

theorem keepsPreset_ownTurn (id : Nat) (t : Task) : KeepsPreset (ownTurn id t) := by
  rw [ownTurn]
  split
  · exact keepsPreset_finishTask id t.running
  · refine .bind (fun w => (comes_advance id t.running w).preset) fun r => ?_
    refine .bind (keepsPreset_setTask id _) fun _ => .bind (.of_leaves .get) fun w => ?_
    split
    · exact keepsPreset_finishTask id r
    · exact .of_leaves (.pure ())

theorem keepsPreset_runTask (id : Nat) : KeepsPreset (runTask id) := by
  intro w
  cases ht : w.tasks[id]? with
  | none => rw [runTask_run_none ht]
  | some t =>
      rw [runTask_run ht]
      exact KeepsPreset.bind (keepsPreset_ownTurn id t) (fun _ => .of_leaves (leaves_endTurn id))
        (w.entered id t)

theorem keepsPreset_runNext : KeepsPreset runNext := by
  intro w
  have hnext := runsNext w
  generalize w.nextTurn? = turn, (runNext.run w).2 = w' at hnext ⊢
  cases hnext with
  | turn id => exact keepsPreset_runTask id _
  | look => exact (leaves_lookAround w).preset
  | rest => rfl

theorem keepsPreset_handIn (step : Script.Step) : KeepsPreset (Scenario.handIn step) :=
  .of_leaves (.bind (.modify fun _ => rfl) fun _ =>
    .bind (leaves_spawn _) fun _ => .pure _)

end Sim

theorem SitsOut.preset (h : SitsOut i w w') : w'.preset = w.preset := by
  induction h with
  | refl => rfl
  | handIn step _ ih => exact (Sim.keepsPreset_handIn step _).trans ih
  | turn j _ _ ih => exact (Sim.keepsPreset_runTask j _).trans ih
  | look _ ih => exact (Sim.leaves_lookAround _).preset.trans ih
  | clock _ ih => exact (Sim.leaves_moveClock _).preset.trans ih
  | choose _ _ _ _ _ ih => exact ih

theorem Resumes.preset (h : Resumes i r v w) : w.preset = v.preset := by
  rcases h with rfl | ⟨v', t, hout, -, rfl⟩
  · rfl
  · have hput : Sim.KeepsPreset ((Sim.setTask i fun t => { t with running := r }) >>= fun _ =>
        Sim.endTurn i) :=
      .bind (Sim.keepsPreset_setTask i _) fun _ => .of_leaves (Sim.leaves_endTurn i)
    exact hout.preset.trans (hput v)

end Simulation

namespace Scenario

variable {s : Scenario} {w : World}

/-- Whatever happens, the application starts by itself what it was told to. -/
theorem Leads.preset (h : Leads s.start w) : w.preset = presetServices s.preset := by
  induction h with
  | refl => exact untouched_start.preset
  | handIn step _ ih => exact (Sim.keepsPreset_handIn step _).trans ih
  | next _ ih => exact (Sim.keepsPreset_runNext _).trans ih
  | clock _ ih => exact (Sim.leaves_moveClock _).preset.trans ih

end Scenario

end EventHub
