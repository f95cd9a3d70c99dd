import EventHub.Proofs.Pool.Permits

/-!
The deadline of a pool, which no move changes.
-/

namespace EventHub.Pool

variable (p : Pool) (id : JobId)

@[simp] theorem deadline_dropToken : (p.dropToken id).deadline = p.deadline := by
  rw [dropToken]
  split
  · rfl
  · split <;> rfl

@[simp] theorem deadline_cancelToken : (p.cancelToken id).deadline = p.deadline := by
  rw [cancelToken]
  split <;> rfl

@[simp] theorem deadline_releasePermit : p.releasePermit.deadline = p.deadline := by
  rw [releasePermit]
  split <;> rfl

@[simp] theorem deadline_returnPermit : (p.returnPermit id).deadline = p.deadline := by
  rw [returnPermit]
  split
  · exact deadline_releasePermit _
  · rfl

@[simp] theorem deadline_leaveQueue : (p.leaveQueue id).deadline = p.deadline := by
  rw [leaveQueue]
  split
  · exact deadline_releasePermit _
  · rfl

@[simp] theorem deadline_noteEnd (result : JobResult) :
    (p.noteEnd id result).deadline = p.deadline := by
  rw [noteEnd.eq_def]
  split <;> rfl

@[simp] theorem deadline_settleDrains : p.settleDrains.deadline = p.deadline := by
  rw [settleDrains]
  split <;> rfl

@[simp] theorem deadline_conclude (result : JobResult) :
    (p.conclude id result).deadline = p.deadline :=
  deadline_settleDrains (p.setPhase id (.ended result))

@[simp] theorem deadline_refuse : (p.refuse id).deadline = p.deadline := by
  simp [refuse]

@[simp] theorem deadline_withToken : (p.withToken id).deadline = p.deadline := by
  rw [withToken]
  split <;> rfl

@[simp] theorem deadline_close : p.close.deadline = p.deadline := by
  have hfold (tokens : List JobId) (q : Pool) :
      (tokens.foldl cancelToken q).deadline = q.deadline := by
    induction tokens generalizing q with
    | nil => rfl
    | cons id rest ih => rw [List.foldl_cons, ih, deadline_cancelToken]
  rw [close, hfold]
  exact deadline_settleDrains { p with isClosed := true }

theorem deadline_begin (t : Ticket) : (p.begin id t).1.deadline = p.deadline := by
  have hbegun := p.begun id t
  generalize p.begin id t = r at hbegun
  cases hbegun with
  | refusedFreely _ => exact (deadline_refuse _ id).trans (deadline_withToken p id)
  | refused _ => exact (deadline_refuse _ id).trans (deadline_withToken p id)
  | _ => exact deadline_withToken p id

theorem deadline_retry (t : Ticket) : (p.retry id t).1.deadline = p.deadline := by
  rw [retry]
  split
  · simp
  · split <;> rfl

theorem deadline_finish (ending : BodyEnd) : (p.finish id ending).deadline = p.deadline := by
  have hends (q : Pool) (hq : q.deadline = p.deadline) :
      (((({ q with live := q.live.filter (·.1 ≠ id) }.noteEnd id ending.result).returnPermit
        id).dropToken id).conclude id ending.result).deadline = p.deadline := by
    simp only [deadline_conclude, deadline_dropToken, deadline_returnPermit, deadline_noteEnd]
    exact hq
  cases ending with
  | overdue deadline => exact hends _ (deadline_cancelToken p id)
  | _ => exact hends p rfl

theorem deadline_abort : (p.abort id).deadline = p.deadline := by
  have haborted := p.aborted id
  generalize p.abort id = p' at haborted
  cases haborted <;> simp

theorem deadline_returnToken : (p.returnToken id).deadline = p.deadline := by
  rw [returnToken]
  split
  · exact deadline_dropToken _ id
  · rfl

theorem deadline_step (m : Move) : (p.step m).deadline = p.deadline := by
  have hact : (p.act m).deadline = p.deadline := by
    cases m with
    | begin id t => exact deadline_begin p id t
    | retry id t => exact deadline_retry p id t
    | finish id ending => exact deadline_finish p id ending
    | abort id => exact deadline_abort p id
    | close => exact deadline_close p
    | giveBack id => exact deadline_returnToken p id
    | _ => rfl
  rw [step]
  split
  · exact hact
  · rfl

/-- A pool keeps the deadline that it was made with. -/
theorem deadline_run (moves : List Move) : (p.run moves).deadline = p.deadline := by
  induction moves using List.reverseRecOn with
  | nil => rfl
  | append_singleton moves m ih => rw [run_concat, deadline_step, ih]

end EventHub.Pool
