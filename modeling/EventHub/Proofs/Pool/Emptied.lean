import EventHub.Proofs.Pool.Closed

/-!
When a shutdown may go on. Only the end of a last task lets it, or the closing of a pool without
tasks: so whoever was let go on, there was a moment at which the pool was closed and no task was
left in it.
-/

namespace EventHub.Pool

variable {p q : Pool} {t : Ticket}

/-- The pool is closed, and every task there ever was has ended. -/
def IsEmptied (p : Pool) : Prop := p.isClosed = true ∧ p.active = []

/-- Whoever may go on could do so before, or the pool is emptied. -/
def LetsGo (before : List Ticket) (p : Pool) : Prop := ∀ t ∈ p.drained, t ∈ before ∨ p.IsEmptied

theorem letsGo_settleDrains (p : Pool) : p.settleDrains.LetsGo p.drained := by
  intro t hmem
  rw [settleDrains] at hmem ⊢
  split
  · rename_i hover
    rw [Bool.and_eq_true, List.isEmpty_iff] at hover
    exact Or.inr hover
  · rename_i hopen
    rw [if_neg hopen] at hmem
    exact Or.inl hmem

/-- The end of a task empties the pool, or lets nobody go on. -/
theorem letsGo_conclude (q : Pool) (id : JobId) (result : JobResult) :
    (q.conclude id result).LetsGo q.drained :=
  letsGo_settleDrains (q.setPhase id (.ended result))

theorem drained_dropToken (q : Pool) (id : JobId) : (q.dropToken id).drained = q.drained := by
  rw [dropToken]
  split
  · rfl
  · split <;> rfl

theorem letsGo_over (h : q.closure.drained = p.drained) (id : JobId) (result : JobResult) :
    ((q.dropToken id).conclude id result).LetsGo p.drained := by
  have hdrained : (q.dropToken id).drained = p.drained := (drained_dropToken q id).trans h
  exact hdrained ▸ letsGo_conclude (q.dropToken id) id result

theorem letsGo_of_drained (h : q.drained = p.drained) : q.LetsGo p.drained :=
  fun _ hmem => Or.inl (h ▸ hmem)

theorem letsGo_close (p : Pool) : p.close.LetsGo p.drained := by
  let marked : Pool := { p with isClosed := true }
  have hclosure := closure_foldl (cancelOrder marked.settleDrains.children)
    { marked.settleDrains with children := [] }
  have hdrained : p.close.drained = marked.settleDrains.drained :=
    congrArg Closure.drained hclosure
  intro t hmem
  rw [hdrained] at hmem
  rcases letsGo_settleDrains marked t hmem with hbefore | ⟨-, hactive⟩
  · exact Or.inl hbefore
  · rw [active, (SameJobs.settleDrains marked).jobs] at hactive
    rw [IsEmptied, active, (SameJobs.close p).jobs]
    exact Or.inr ⟨isClosed_close p, hactive⟩

theorem letsGo_act (p : Pool) (m : Move) : (p.act m).LetsGo p.drained := by
  cases m with
  | begin id t =>
      have hwith : (p.withToken id).closure.drained = p.drained := by
        rw [withToken]
        split <;> rfl
      have hrefused (q : Pool) (hq : q.closure.drained = p.drained) :
          (q.refuse id).LetsGo p.drained := letsGo_over hq id _
      have hbegun := p.begun id t
      simp only [act]
      generalize p.begin id t = r at hbegun
      cases hbegun with
      | refusedFreely _ => exact hrefused _ hwith
      | refused _ => exact hrefused _ hwith
      | _ => exact letsGo_of_drained hwith
  | retry id t =>
      simp only [act, retry]
      split
      · exact letsGo_over (congrArg Closure.drained (closure_leaveQueue p id)) id _
      · split <;> exact letsGo_of_drained rfl
  | finish id ending =>
      have hends (q : Pool) (hq : q.closure.drained = p.drained) :
          (((({ q with live := q.live.filter (·.1 ≠ id) }.noteEnd id ending.result).returnPermit
            id).dropToken id).conclude id ending.result).LetsGo p.drained := by
        apply letsGo_over
        rw [closure_returnPermit, closure_noteEnd]
        exact hq
      cases ending with
      | overdue deadline => exact hends _ (congrArg Closure.drained (closure_cancelToken p id))
      | _ => exact hends p rfl
  | abort id =>
      have haborted := p.aborted id
      simp only [act]
      generalize p.abort id = p' at haborted
      cases haborted with
      | none _ => exact letsGo_of_drained rfl
      | submitted _ => exact letsGo_conclude p id _
      | waiting _ => exact letsGo_over (congrArg Closure.drained (closure_leaveQueue p id)) id _
      | running _ => exact letsGo_over (congrArg Closure.drained (closure_returnPermit p id)) id _
  | close => exact letsGo_close p
  | giveBack id =>
      simp only [act, returnToken]
      split
      · exact letsGo_of_drained (drained_dropToken _ id)
      · exact letsGo_of_drained rfl
  | leaveDrain t => exact fun _ hmem => Or.inl (List.mem_of_mem_erase hmem)
  | _ => exact letsGo_of_drained rfl

theorem letsGo_step (p : Pool) (m : Move) : (p.step m).LetsGo p.drained := by
  rw [step]
  split
  · exact letsGo_act p m
  · exact letsGo_of_drained rfl

/-- There was a moment, in these moves of a new pool, at which it was emptied. -/
def WasEmptied (config : Config) (moves : List Move) : Prop :=
  ∃ before, before <+: moves ∧ ((Pool.new config).run before).IsEmptied

/-- Whoever may go on was let by a moment at which the pool was emptied. -/
theorem wasEmptied_of_mem_drained {config : Config} {moves : List Move}
    (h : t ∈ ((Pool.new config).run moves).drained) : WasEmptied config moves := by
  induction moves using List.reverseRecOn with
  | nil => cases h
  | append_singleton moves m ih =>
      rw [run_concat] at h
      rcases letsGo_step _ m t h with hbefore | hemptied
      · obtain ⟨before, hprefix, hemptied⟩ := ih hbefore
        exact ⟨before, hprefix.trans (List.prefix_append moves [m]), hemptied⟩
      · exact ⟨moves ++ [m], List.prefix_rfl, (run_concat _ moves m).symm ▸ hemptied⟩

theorem wasEmptied_of_isDrained {config : Config} {moves : List Move}
    (h : ((Pool.new config).run moves).isDrained t = true) : WasEmptied config moves := by
  rw [isDrained, Bool.or_eq_true, Bool.and_eq_true, List.isEmpty_iff] at h
  rcases h with hnow | hmem
  · exact ⟨moves, List.prefix_rfl, hnow⟩
  · exact wasEmptied_of_mem_drained (of_decide_eq_true hmem)

theorem WasEmptied.mono {config : Config} {moves : List Move} (h : WasEmptied config moves)
    (later : List Move) : WasEmptied config (moves ++ later) := by
  obtain ⟨before, hprefix, hemptied⟩ := h
  exact ⟨before, hprefix.trans (List.prefix_append moves later), hemptied⟩

end EventHub.Pool
