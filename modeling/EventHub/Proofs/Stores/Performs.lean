import EventHub.Proofs.Simulation.Performs
import EventHub.Proofs.Stores.Draining

/-!
Calls among others that do what they may do to the stores. What acts on the stores keep is kept
from the call's beginning to its end.
-/

namespace EventHub.Simulation

variable {a : Shape} {least : Nat} {v : World} {f : Future a} {turns : List (World × World)}
  {o : Outcome a.Value}

/-- Meanwhile the stores have gone on by acts, whatever the computation waits for. -/
abbrev ByActs (_ : Future a) (v w : World) : Prop := AllActs v.stores w.stores

theorem byActs_refl (f : Future a) (w : World) : ByActs f w w := .refl _

namespace Performs

theorem concludes (h : Performs ByActs least v f turns o) : Concludes least v.pool f turns o := by
  induction h with
  | last n hsince hroom hturn =>
      obtain ⟨moves, hpool⟩ := hsince.pool
      exact .now n moves hpool hroom hturn
  | turn n hsince hroom hturn hgoes _ ih =>
      obtain ⟨moves, hpool⟩ := hsince.pool
      exact .later n moves hpool hroom hturn hgoes ih

/-- A call that is no job's leaves the jobs to their tasks, so all the while the stores go on by
acts. -/
theorem acts (h : Performs ByActs least v f turns o) (hf : f.isJobless = true) :
    ∀ turn ∈ turns, AllActs v.stores turn.1.stores ∧ AllActs v.stores turn.2.stores := by
  have hown {f : Future a} (hf : f.isJobless = true) (n : Nat) (w : World) :
      AllActs w.stores ((Sim.poll n f).run w).2.stores ∧
        ((Sim.poll n f).run w).1.isJobless = true := by
    obtain ⟨hproceeds, hjobless⟩ := Sim.jobless_poll (i := none) n hf w
    exact ⟨hproceeds.acts.widen fun _ _ => trivial, hjobless⟩
  induction h with
  | @last v f w w' o n hsince _ hturn =>
      obtain ⟨hacts, -⟩ := hown hf n w
      rw [hturn] at hacts
      exact List.forall_mem_singleton.mpr ⟨hsince, hsince.trans hacts⟩
  | @turn v f f' w w' turns o n hsince _ hturn _ _ ih =>
      obtain ⟨hacts, hjobless⟩ := hown hf n w
      rw [hturn] at hacts hjobless
      have hafter := hsince.trans hacts
      refine List.forall_mem_cons.mpr ⟨⟨hsince, hafter⟩, ?_⟩
      intro turn hmem
      obtain ⟨hbegun, hended⟩ := ih hjobless turn hmem
      exact ⟨hafter.trans hbegun, hafter.trans hended⟩

theorem lasting {last : World} (h : Performs ByActs least v f turns o) (hf : f.isJobless = true)
    (hlast : turns.getLast?.map Prod.snd = some last) : AllActs v.stores last.stores := by
  obtain ⟨turn, hturn, rfl⟩ := Option.map_eq_some_iff.mp hlast
  exact (h.acts hf turn (List.mem_of_getLast? hturn)).2

end Performs

end EventHub.Simulation
