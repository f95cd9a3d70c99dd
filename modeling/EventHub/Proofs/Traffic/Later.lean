import EventHub.Proofs.Traffic.Orderly

/-!
The same traffic, later on. What the registry has taken it has taken for good, a registration that
has come out stays as it is, a broker that was closed stays closed, and a ticket that is not used
yet was never used.
-/

namespace EventHub

/-- What was taken before somebody had asked for anything was taken before that. -/
theorem Served.prefix_before {L : Type} {first before after : List (Served L)} {s : Served L}
    {t : Ticket} (h : first <+: before ++ s :: after) (hcaller : s.caller = some t)
    (hnone : requestsOf first t = []) : first <+: before := by
  by_cases hlength : first.length ≤ before.length
  · exact List.prefix_of_prefix_length_le h (List.prefix_append before _) hlength
  · have hconcat : before ++ [s] <+: before ++ s :: after := ⟨after, by simp⟩
    have hless : (before ++ [s]).length ≤ first.length := by
      rw [List.length_append, List.length_singleton]
      omega
    have hmem : s ∈ first := by
      apply (List.prefix_of_prefix_length_le hconcat h hless).subset
      simp
    have hasked := mem_requestsOf hmem hcaller
    rw [hnone] at hasked
    cases hasked

namespace Traffic

variable {L : Type} {x x' x'' : Traffic L}

section Steps

variable {ended : Ticket → Handle → Option String → Prop} {t : Ticket}

/-- A registration that has come out stays as it is. -/
theorem Orderly.registered_step (h : x.Orderly ended) {name : String}
    {result : Except BrokerError Handle} {isGivenUp : Bool}
    (htask : x.tasks t = some ⟨.registered name result, isGivenUp⟩) (m : Move L) :
    (x.step m).tasks t = some ⟨.registered name result, isGivenUp⟩ := by
  cases m with
  | task u turn =>
      by_cases heq : t = u
      · subst heq
        rw [Traffic.step, Orderly.turn_over htask (Or.inr (Or.inl ⟨name, result, rfl⟩)), htask]
      · exact (leaves_turn h.lawful.owned heq turn).task.trans htask
  | work => exact htask
  | close => exact htask

/-- Only a closed broker has told a registration that it is closed. -/
theorem Orderly.closed_of_registered (h : x.Orderly ended) {name : String} {isGivenUp : Bool}
    (htask : x.tasks t = some ⟨.registered name (.error .closed), isGivenUp⟩) :
    x.broker.isClosed = true := by
  cases h.stands t _ htask with
  | other _ _ hplain => exact hplain.elim
  | refused _ _ _ _ hclosed => exact hclosed
  | unconfirmed _ _ _ hclosed => exact hclosed

theorem Orderly.served_step (h : x.Orderly ended) (m : Move L) :
    x.served <+: (x.step m).served := by
  cases m with
  | task u turn =>
      have hsame : (x.step (.task u turn)).served = x.served :=
        (books_turn h.lawful.owned u turn).2.1
      exact ⟨[], by rw [hsame, List.append_nil]⟩
  | work => exact List.prefix_append _ _
  | close => exact List.prefix_refl _

end Steps

section Runs

variable (config : Config) (worker : Ticket) (moves : List (Move L))

theorem registered_later {t : Ticket} {name : String} {result : Except BrokerError Handle}
    {isGivenUp : Bool}
    (htask : (run config worker moves).tasks t = some ⟨.registered name result, isGivenUp⟩)
    (later : List (Move L)) :
    (run config worker (moves ++ later)).tasks t = some ⟨.registered name result, isGivenUp⟩ := by
  induction later using List.reverseRecOn with
  | nil => rwa [List.append_nil]
  | append_singleton later m ih =>
      rw [← List.append_assoc, run_concat]
      exact (orderly_run config worker _).registered_step ih m

theorem served_later (later : List (Move L)) :
    (run config worker moves).served <+: (run config worker (moves ++ later)).served := by
  induction later using List.reverseRecOn with
  | nil => exact ⟨[], by rw [List.append_nil, List.append_nil]⟩
  | append_singleton later m ih =>
      rw [← List.append_assoc, run_concat]
      exact ih.trans ((orderly_run config worker _).served_step m)

end Runs

/-- The traffic of a broker, and the same traffic later on. -/
def Later (x x' : Traffic L) : Prop :=
  ∃ config worker moves, ∃ later : List (Move L),
    x = run config worker moves ∧ x' = later.foldl step x

namespace Later

theorem runs (h : Later x x') : ∃ config worker moves later,
    x = run config worker moves ∧ x' = run config worker (moves ++ later) := by
  obtain ⟨config, worker, moves, later, rfl, rfl⟩ := h
  exact ⟨config, worker, moves, later, rfl, (run_append config worker moves later).symm⟩

theorem last (h : Later x x') : Later x' x' := by
  obtain ⟨config, worker, moves, later, -, rfl⟩ := h.runs
  exact ⟨config, worker, moves ++ later, [], rfl, rfl⟩

theorem trans (h : Later x x') (h' : Later x' x'') : Later x x'' := by
  obtain ⟨config, worker, moves, later, hx, rfl⟩ := h
  obtain ⟨-, -, -, later', -, rfl⟩ := h'
  exact ⟨config, worker, moves, later ++ later', hx, List.foldl_append.symm⟩

theorem orderly (h : Later x x') : (∃ ended, x.Orderly ended) ∧ ∃ ended, x'.Orderly ended := by
  obtain ⟨config, worker, moves, later, rfl, rfl⟩ := h.runs
  exact ⟨⟨_, orderly_run config worker moves⟩, _, orderly_run config worker (moves ++ later)⟩

theorem served (h : Later x x') : x.served <+: x'.served := by
  obtain ⟨config, worker, moves, later, rfl, rfl⟩ := h.runs
  exact served_later config worker moves later

theorem registered (h : Later x x') {t : Ticket} {name : String}
    {result : Except BrokerError Handle} {isGivenUp : Bool}
    (htask : x.tasks t = some ⟨.registered name result, isGivenUp⟩) :
    x'.tasks t = some ⟨.registered name result, isGivenUp⟩ := by
  obtain ⟨config, worker, moves, later, rfl, rfl⟩ := h.runs
  exact registered_later config worker moves htask later

theorem closed (h : Later x x') (hclosed : x.broker.isClosed = true) :
    x'.broker.isClosed = true ∧ x'.served = x.served := by
  obtain ⟨config, worker, moves, later, rfl, rfl⟩ := h
  exact closed_foldl (lawful_run config worker moves) hclosed later

end Later

end Traffic

end EventHub
