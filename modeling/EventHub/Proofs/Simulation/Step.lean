import EventHub.Proofs.Simulation.Turns

/-!
How a step comes to be carried out. It may first have to take things, and others
may go on meanwhile, but until the turn in which it is carried out its own turns
keep the stores.
-/

namespace EventHub.Simulation

open EventHub.Script

namespace Sim

theorem spares_needs (s : Step) : Spares (needs s) := by
  intro w
  rw [needs.eq_def]
  split <;> exact .refl w

theorem check_taking_eq (things : Nat) (t : Ticket) :
    check (.taking things t) = (get >>= fun w => spend things >>= fun _ =>
      if things ≤ w.allowance.getD things then pure (.next (.value ()))
      else defer >>= fun _ =>
        pure (.pending (.taking (things - w.allowance.getD things) t))) := by
  rw [check]

/-- A task takes at once what it may take; otherwise it takes as much as it may, and waits for
the rest. -/
theorem poll_taking_run (n things : Nat) (t : Ticket) (w : World) :
    (things ≤ w.allowance.getD things ∧ (poll (n + 1) (.wait (.taking things t))).run w =
      (.value (), ((spend things).run w).2)) ∨
    (w.allowance.getD things < things ∧ (poll (n + 1) (.wait (.taking things t))).run w =
      (.wait (.taking (things - w.allowance.getD things) t),
        (defer.run ((spend things).run w).2).2)) := by
  have hget : (get : Sim World).run w = (w, w) := rfl
  rw [poll_wait, check_taking_eq]
  simp only [run_bind, hget]
  by_cases henough : things ≤ w.allowance.getD things
  · rw [if_pos henough]
    exact Or.inl ⟨henough, poll_value (a := .unit) n () _⟩
  · rw [if_neg henough]
    exact Or.inr ⟨Nat.lt_of_not_le henough, rfl⟩

/-- Taking things keeps the stores. -/
theorem poll_taking (n things : Nat) (t : Ticket) (w : World) :
    Kept w ((poll n (.wait (.taking things t))).run w).2 ∧
      (((poll n (.wait (.taking things t))).run w).1 = .value () ∨
        ∃ things', ((poll n (.wait (.taking things t))).run w).1 = .wait (.taking things' t)) := by
  have hspent : Kept w ((spend things).run w).2 := spares_spend things w
  cases n with
  | zero => exact ⟨.refl w, Or.inr ⟨things, rfl⟩⟩
  | succ n =>
      rcases poll_taking_run n things t w with ⟨-, htaken⟩ | ⟨-, hwaits⟩
      · rw [htaken]
        exact ⟨hspent, Or.inl rfl⟩
      · rw [hwaits]
        exact ⟨hspent.trans (spares_defer _), Or.inr ⟨_, rfl⟩⟩

theorem begin_perform (context : Context) (s : Step) :
    Sim.begin (.perform context s) = perform context s := by
  rw [Sim.begin]

theorem begin_step (context : Context) (s : Step) :
    Sim.begin (.step context s) = step context s := by
  rw [Sim.begin]

theorem resume_andThen {a : Shape} (next : Begin a) (w : World) :
    (resume (.andThen next) (.returned ())).run w = (.begin next, w) := by
  rw [resume]
  rfl

/-- A step is carried out at once, or first takes what it needs. -/
theorem step_run (context : Context) (s : Step) (w : World) :
    (∃ w', Kept w w' ∧ (step context s).run w = (perform context s).run w') ∨
      (Kept w ((step context s).run w).2 ∧ ∃ things t, ((step context s).run w).1 =
        .bind (.wait (.taking things t)) (.andThen (.perform context s))) := by
  have hwritten := spares_writeAll (intention s) w
  have hkept := hwritten.trans (spares_needs s _)
  simp only [step, run_bind]
  split
  · exact Or.inl ⟨_, hkept, rfl⟩
  · exact Or.inr ⟨hkept.trans (spares_ticket _), _, _, rfl⟩

end Sim

/-- A step that was not carried out yet. -/
inductive Prepared (context : Context) (s : Step) : Future .result → Prop where
  | step : Prepared context s (.begin (.step context s))
  | taking (things : Nat) (t : Ticket) :
      Prepared context s (.bind (.wait (.taking things t)) (.andThen (.perform context s)))
  | perform : Prepared context s (.begin (.perform context s))

/-- In one turn a step is either not carried out yet, or it is, in a world where the
stores are still as they were. -/
theorem Prepared.poll {context : Context} {s : Step} {f : Future .result}
    (h : Prepared context s f) (n : Nat) (w : World) :
    (Prepared context s ((Sim.poll n f).run w).1 ∧ Kept w ((Sim.poll n f).run w).2) ∨
      ∃ w' n', Kept w w' ∧
        (Sim.poll n f).run w = (Sim.perform context s >>= Sim.poll n').run w' := by
  induction n generalizing f w with
  | zero => exact Or.inl ⟨h, .refl w⟩
  | succ n ih =>
      cases h with
      | perform =>
          rw [Sim.poll_begin, Sim.begin_perform]
          exact Or.inr ⟨w, n, .refl w, rfl⟩
      | taking things t =>
          obtain ⟨hkept, htaken⟩ := Sim.poll_taking n things t w
          rw [Sim.poll_bind]
          generalize (Sim.poll n (.wait (.taking things t))).run w = taken at hkept htaken
          obtain ⟨g, w'⟩ := taken
          rcases htaken with hg | ⟨things', hg⟩
          · obtain rfl : g = .value () := hg
            simp only [Future.value]
            rw [Sim.resume_andThen]
            rcases ih .perform w' with ⟨hprepared, hkept'⟩ | ⟨w'', n', hkept', hrun⟩
            · exact Or.inl ⟨hprepared, hkept.trans hkept'⟩
            · exact Or.inr ⟨w'', n', hkept.trans hkept', hrun⟩
          · obtain rfl : g = .wait (.taking things' t) := hg
            exact Or.inl ⟨.taking things' t, hkept⟩
      | step =>
          rw [Sim.poll_begin, Sim.begin_step]
          rcases Sim.step_run context s w with ⟨w', hkept, hstep⟩ | ⟨hkept, things, t, hstep⟩
          · rw [hstep]
            exact Or.inr ⟨w', n, hkept, rfl⟩
          · rw [hstep]
            rcases ih (.taking things t) _ with ⟨hprepared, hkept'⟩ | ⟨w'', n', hkept', hrun⟩
            · exact Or.inl ⟨hprepared, hkept.trans hkept'⟩
            · exact Or.inr ⟨w'', n', hkept.trans hkept', hrun⟩

end EventHub.Simulation
