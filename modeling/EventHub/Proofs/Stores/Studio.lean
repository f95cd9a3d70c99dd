import EventHub.Proofs.Stores.Reach
import EventHub.Proofs.Views.Studio

/-!
The calls for views in a world. They work on the first workspace, and what is done to it, to
the generators and to the calls are moves of a studio: so every world shows a state of a run
of a studio, and as the world goes on this run goes on.
-/

namespace EventHub

open EventHub.Script EventHub.Simulation

namespace Simulation

/-- What calls for views work with. -/
def Stores.studio (s : Stores) : Studio Renderer where
  workspace := (s.workspaces[0]?.map (·.workspace)).getD {}
  views := s.views
  calls := s.viewCalls

def World.studio (w : World) : Studio Renderer := w.stores.studio

variable {may : Pool.Move → Prop} {s s' : Stores}

theorem Stores.studio_workspace {hosted : Hosted} (h : s.workspaces[0]? = some hosted) :
    s.studio.workspace = hosted.workspace := by
  rw [studio, h]
  rfl

theorem Stores.studio_turnView {hosted : Hosted} (h : s.workspaces[0]? = some hosted)
    (call : Nat) (job : JobResult) (now : Nat) :
    (s.turnView call hosted.workspace job now).studio =
      Studio.step Renderer.generate s.studio (.turn call job now) := by
  have hworkspaces : (s.turnView call hosted.workspace job now).workspaces[0]? =
      some { hosted with workspace :=
        ((s.viewCalls[call]?.getD default).turn hosted.workspace s.views job now).1 } := by
    simp only [turnView, h]
    exact getElem?_set_self h _
  rw [Studio.step, Studio.turned, studio_workspace h, studio, hworkspaces]
  rfl

/-- An act is a move of the studio, or has nothing to do with it. -/
theorem Act.studio_cases (h : Act may s s') {hosted : Hosted}
    (hfound : s.workspaces[0]? = some hosted) :
    s'.studio = s.studio ∨ ∃ m, s'.studio = Studio.step Renderer.generate s.studio m := by
  cases h with
  | request index other hother q =>
      by_cases hindex : index = 0
      · subst hindex
        cases hother.symm.trans hfound
        right
        refine ⟨.request q, ?_⟩
        rw [Studio.step, Stores.studio_workspace hfound, Stores.studio, getElem?_set_self hfound]
        rfl
      · left
        rw [Stores.studio, getElem?_set_other hindex]
        rfl
  | newWorkspace broker =>
      obtain ⟨hlt, -⟩ := Array.getElem?_eq_some_iff.mp hfound
      left
      rw [Stores.studio, Array.getElem?_push_lt hlt, ← Array.getElem?_eq_getElem hlt]
      rfl
  | generator g => exact Or.inr ⟨.register g, rfl⟩
  | viewCall file viewType => exact Or.inr ⟨.call file viewType, rfl⟩
  | handOver call => exact Or.inr ⟨.handOver call, rfl⟩
  | turnView call state hstate job now =>
      rw [← hstate hosted hfound]
      exact Or.inr ⟨.turn call job now, Stores.studio_turnView hfound call job now⟩
  | _ => exact Or.inl rfl

/-- The studio goes through a list of moves. -/
theorem Acts.studio (h : Acts may s s') {hosted : Hosted}
    (hfound : s.workspaces[0]? = some hosted) :
    ∃ moves : List (Studio.Move Renderer),
      s'.studio = moves.foldl (Studio.step Renderer.generate) s.studio := by
  induction h with
  | refl => exact ⟨[], rfl⟩
  | tail hfirst hlast ih =>
      obtain ⟨moves, hmoves⟩ := ih
      obtain ⟨requests, hbefore⟩ := Acts.workspace hfirst hfound
      rcases hlast.studio_cases hbefore with hsame | ⟨m, hm⟩
      · exact ⟨moves, hsame.trans hmoves⟩
      · refine ⟨moves ++ [m], ?_⟩
        rw [hm, hmoves, List.foldl_append]
        rfl

end Simulation

namespace Scenario

variable {s : Scenario} {w : World}

/-- At the start nothing is there. -/
theorem studio_start (s : Scenario) :
    s.start.studio = {} ∧ ∃ hosted, s.start.workspaces[0]? = some hosted := by
  obtain ⟨config, preset, parser, level, steps⟩ := s
  cases parser <;> exact ⟨rfl, _, rfl⟩

/-- Every world shows a state of a run of a studio, and goes on with this run. -/
theorem Leads.studio (h : Leads s.start w) :
    ∃ moves, w.studio = Studio.run Renderer.generate moves ∧
      ∀ w', Leads w w' → ∃ later, w'.studio = Studio.run Renderer.generate (moves ++ later) := by
  obtain ⟨hstart, hosted, hfound⟩ := studio_start s
  have hturns := h.turns setUp_start.inStep
  obtain ⟨moves, hmoves⟩ := hturns.acts.studio hfound
  obtain ⟨requests, hthen⟩ := hturns.acts.workspace hfound
  have hrun : w.studio = Studio.run Renderer.generate moves := by
    rw [Studio.run, ← hstart]
    exact hmoves
  refine ⟨moves, hrun, ?_⟩
  intro w' hleads
  obtain ⟨later, hlater⟩ := (hleads.turns hturns.inStep).acts.studio hthen
  refine ⟨later, ?_⟩
  rw [Studio.run_append, ← hrun]
  exact hlater

/-- What holds of every run of a studio holds of every world, and as it goes on. -/
theorem Leads.studio_holds (h : Leads s.start w) {p : List (Studio.Move Renderer) → Prop}
    (hp : ∀ moves, p moves) :
    ∃ moves, w.studio = Studio.run Renderer.generate moves ∧ p moves ∧
      ∀ w', Leads w w' →
        ∃ later, w'.studio = Studio.run Renderer.generate (moves ++ later) ∧
          p (moves ++ later) := by
  obtain ⟨moves, hmoves, honward⟩ := h.studio
  refine ⟨moves, hmoves, hp moves, ?_⟩
  intro w' hleads
  obtain ⟨later, hlater⟩ := honward w' hleads
  exact ⟨later, hlater, hp _⟩

end Scenario

end EventHub
