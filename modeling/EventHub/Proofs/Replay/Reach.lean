import EventHub.Proofs.Replay.Schedule
import EventHub.Scenario

/-!
Every world that a scenario comes to replays traffic at each of its brokers, and as the
world goes on so does the traffic. What holds of the traffic in every order of moves
holds of the broker that runs.
-/

namespace EventHub

open EventHub.Script EventHub.Simulation

namespace Scenario

/-- The script hands in its next step. -/
def handIn (step : Step) : Sim Unit := do
  modify fun w =>
    { w with answer := none, isSettled := false, seen := [], deeds := [], records := [] }
  let _ ← Sim.spawn (.main (.begin (.step {} step)))

/-- What a world comes to, turn by turn, whatever steps its script has. -/
inductive Leads (w : World) : World → Prop
  | refl : Leads w w
  | handIn (step : Step) {w' : World} (h : Leads w w') : Leads w ((handIn step).run w').2
  | next {w' : World} (h : Leads w w') : Leads w (Sim.runNext.run w').2
  | clock {w' : World} (h : Leads w w') : Leads w (Sim.moveClock.run w').2

variable {w w' : World} {k : Nat}

theorem Leads.runTurns (h : Leads w w') (turns : Nat) :
    Leads w ((Sim.runTurns turns).run w').2 := by
  induction turns generalizing w' with
  | zero => exact h
  | succ turns ih =>
      rw [Sim.runTurns, Sim.run_bind]
      split
      · exact ih h.next
      · rw [Sim.run_bind]
        split
        · exact h.next
        · rw [Sim.run_bind]
          split
          · exact ih h.next.clock
          · exact h.next.clock

/-- A step that has been run leaves a world that was reached turn by turn. -/
theorem Leads.runStep (h : Leads w w') (level : Option Level) (step : Step) :
    Leads w ((runStep level step).run w').2 := (h.handIn step).runTurns stepFuel

/-- Before anything is made there is no broker and nothing under way. -/
theorem replays_start (s : Scenario) (k : Nat) : ∃ x, Replays k none x s.start := by
  let empty : World :=
    { config := s.config
      pool := Pool.new s.config
      preset := presetServices s.preset
      tasks := #[{ running := .finished }] }
  have hempty : Replays k none { broker := Sim.noBroker } empty := by
    constructor
    case current => simp
    case found =>
      intro b hb
      simp [empty] at hb
    case absent => exact fun _ => ⟨fun _ => rfl, rfl⟩
    case fresh =>
      intro t task ht
      cases ht
    case others =>
      intro j task _ htask
      have hfinished : task = { running := .finished } := by
        simpa [empty] using Array.mem_of_getElem? htask
      rw [hfinished]
      exact ⟨[], rfl, .nil j empty⟩
  have hbuilt {m : Sim Unit} (hm : Sim.Calms k m) : ∃ x, Replays k none x (m.run empty).2 := by
    obtain ⟨x, hreplays, -⟩ := hempty.calm (hm empty)
    exact ⟨x, hreplays⟩
  apply hbuilt
  refine .bind (Sim.calms_newBroker s.config) fun broker => .bind (.mapM ?_ s.parser) fun _ => ?_
  · exact fun p => .bind (Sim.calms_plugin p.2) fun _ => .pure _
  · exact .modify (fun _ => rfl) (fun _ => rfl) (fun _ => rfl) fun _ => rfl

/-- To hand in a step is to add a task that holds nothing yet. -/
theorem keeps_handIn (step : Step) (spared : Ticket → Prop) :
    Sim.Keeps k spared (Scenario.handIn step) := by
  refine .calm (.bind (.modify (fun _ => rfl) (fun _ => rfl) (fun _ => rfl) fun _ => rfl)
    fun _ => ?_)
  refine .bind (Sim.calms_spawn fun x => ?_) fun _ => .pure _
  exact Future.Plain.begin (k := k) (b := .step {} step) rfl x

/-- Turn by turn, the traffic at each broker goes on. -/
theorem Leads.goesOn (h : Leads w w') {x : Traffic Action} (hx : Replays k none x w) :
    Sim.GoesOn k x w w' := by
  have hpast : Sim.GoesPast k (fun _ => False) x w w' := by
    induction h with
    | refl => exact .refl hx
    | handIn step _ ih =>
        obtain ⟨x', hx', honward, hserial, htasks⟩ := ih
        exact (keeps_handIn step _ x' _ hx').after honward hserial htasks
    | next _ ih =>
        obtain ⟨x', hx', honward, hserial, htasks⟩ := ih
        exact (Sim.keeps_runNext x' _ hx').after honward hserial htasks
    | clock _ ih =>
        obtain ⟨x', hx', honward, hserial, htasks⟩ := ih
        exact (Sim.keeps_moveClock x' _ hx').after honward hserial htasks
  exact hpast.goesOn

end Scenario

end EventHub
