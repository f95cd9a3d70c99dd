import EventHub.Proofs.Traffic.Isolation

/-!
A closed broker. It stays closed, and its registry takes no command any more.
-/

namespace EventHub

namespace Broker

variable {L : Type}

theorem isClosed_answer (b : Broker L) (caller : Option Ticket) (reply : Reply L) :
    (b.answer caller reply).isClosed = b.isClosed := by
  cases caller with
  | none => rfl
  | some t =>
      simp only [answer]
      split <;> rfl

theorem isClosed_stop (b : Broker L) : b.stop.isClosed = b.isClosed := by
  have hfold (dropped : List (Envelope L)) (b : Broker L) :
      (dropped.foldl (fun b e => b.answer e.caller .lost) b).isClosed = b.isClosed := by
    induction dropped generalizing b with
    | nil => rfl
    | cons e rest ih => exact (ih _).trans (isClosed_answer _ _ _)
  exact hfold _ _

/-- The registry of a closed broker takes nothing more. -/
theorem step_of_closed {b : Broker L} (hclosed : b.isClosed = true) :
    b.step.isClosed = true ∧ b.serving = [] := by
  rcases b.step_cases with ⟨hstep, hserving⟩ | ⟨-, hstep, hserving⟩ | ⟨_, _, _, _, -, hopen, -⟩
  · rw [hstep]
    exact ⟨hclosed, hserving⟩
  · rw [hstep, isClosed_stop]
    exact ⟨hclosed, hserving⟩
  · rw [hclosed] at hopen
    cases hopen

theorem isClosed_close (b : Broker L) : b.close.isClosed = true := by
  rw [close]
  split
  · assumption
  · rfl

end Broker

namespace Traffic

variable {L : Type} {x : Traffic L}

theorem closed_step (h : x.Lawful) (hclosed : x.broker.isClosed = true) (m : Move L) :
    (x.step m).broker.isClosed = true ∧ (x.step m).served = x.served := by
  cases m with
  | task u turn =>
      have hne : (⟨u.task + 1, u.serial⟩ : Ticket) ≠ u := fun heq =>
        absurd (congrArg Ticket.task heq) (Nat.succ_ne_self _)
      have hleaves := leaves_turn h.owned hne turn
      exact ⟨hleaves.broker.isClosed hclosed, hleaves.served⟩
  | work =>
      obtain ⟨hstays, hserving⟩ := Broker.step_of_closed hclosed
      refine ⟨hstays, ?_⟩
      simp [step, hserving]
  | close => exact ⟨x.broker.isClosed_close, rfl⟩

theorem closed_foldl (h : x.Lawful) (hclosed : x.broker.isClosed = true) (moves : List (Move L)) :
    (moves.foldl step x).broker.isClosed = true ∧ (moves.foldl step x).served = x.served := by
  induction moves generalizing x with
  | nil => exact ⟨hclosed, rfl⟩
  | cons m rest ih =>
      obtain ⟨hstays, hserved⟩ := closed_step h hclosed m
      obtain ⟨hclosed', hserved'⟩ := ih (h.step m) hstays
      exact ⟨hclosed', hserved'.trans hserved⟩

end Traffic

end EventHub
