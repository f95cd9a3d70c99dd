import EventHub.Proofs.Pool.Permits
import EventHub.Proofs.Stores.Reach

/-!
The limit on how many bodies run at once. What the books of the permits say is said
here of the jobs: those that hold a permit and the free permits add up to the limit,
and no body runs without one.
-/

namespace EventHub.Pool

/-- The jobs that hold a permit, those included that have not gone on with theirs. -/
def holding (p : Pool) : List Job := p.jobs.filter fun j => j.id ∈ p.granted ++ p.holders

/-- A pool keeps to its limit and has all its permits. -/
structure Capped (p : Pool) (n : Nat) : Prop where
  conserved : p.free + p.holding.length = n
  one_each : (p.granted ++ p.holders).Nodup
  holders_active : ∀ j ∈ p.holding, j.hasEnded = false
  runners_hold : ∀ j ∈ p.jobs, j.phase.isRunning = true → j ∈ p.holding
  running_le : p.running.length ≤ n
  /-- Nobody stands in line for a permit while one is free. -/
  spare : 0 < p.free → p.queue = []
  restored : p.active = [] → p.free = n

section Limit

variable {p : Pool} {n : Nat}

theorem InBalance.mem_given (h : p.InBalance n) {id : JobId} (hmem : id ∈ p.granted ++ p.holders) :
    p.waits id = true ∨ p.runs id = true := by
  have hheld := h.held id
  have hlined := h.lined id
  have hpositive := List.count_pos_iff.mpr hmem
  simp only [permits] at hheld hlined
  rw [List.count_append] at hpositive
  cases hwaits : p.waits id with
  | true => exact Or.inl rfl
  | false =>
      cases hruns : p.runs id with
      | true => exact Or.inr rfl
      | false =>
          rw [hwaits, Bool.toNat_false] at hlined
          rw [hruns, Bool.toNat_false] at hheld
          omega

theorem InBalance.given_nodup (h : p.InBalance n) : (p.granted ++ p.holders).Nodup := by
  rw [List.nodup_iff_count_le_one]
  intro id
  have hheld := h.held id
  have hlined := h.lined id
  simp only [permits] at hheld hlined
  rw [List.count_append]
  cases hruns : p.runs id with
  | false =>
      have hwaits := Bool.toNat_le (p.waits id)
      rw [hruns, Bool.toNat_false] at hheld
      omega
  | true =>
      rw [hruns, Bool.toNat_true] at hheld
      rw [waits_of_runs hruns, Bool.toNat_false] at hlined
      omega

/-- The permits that are not free are held by jobs of the pool, one by each. -/
theorem InBalance.holding_perm {cut : List (JobId × String)} (h : p.InBalance n)
    (haccounts : Accounts p cut) : (p.holding.map Job.id).Perm (p.granted ++ p.holders) := by
  have hnodup : (p.holding.map Job.id).Nodup :=
    haccounts.ids_nodup.sublist (List.filter_sublist.map Job.id)
  rw [List.perm_ext_iff_of_nodup hnodup h.given_nodup]
  intro id
  constructor
  · intro hmem
    obtain ⟨j, hj, rfl⟩ := List.mem_map.mp hmem
    simpa using (List.mem_filter.mp hj).2
  · intro hgiven
    have hknown : (p.job? id).isSome := by
      rcases h.mem_given hgiven with hwaits | hruns
      · exact isSome_of_isIn hwaits
      · exact isSome_of_isIn hruns
    obtain ⟨j, hj⟩ := Option.isSome_iff_exists.mp hknown
    have hid : j.id = id := by simpa using List.find?_some hj
    apply List.mem_map.mpr
    refine ⟨j, ?_, hid⟩
    apply List.mem_filter.mpr
    refine ⟨List.mem_of_find?_eq_some hj, ?_⟩
    simpa [hid] using hgiven

theorem InBalance.capped {cut : List (JobId × String)} (h : p.InBalance n)
    (haccounts : Accounts p cut) : p.Capped n := by
  have hrunners : ∀ j ∈ p.jobs, j.phase.isRunning = true → j ∈ p.holding := by
    intro j hmem hrunning
    have hruns : p.runs j.id = true := (isIn_of_job? (haccounts.job?_of_mem hmem) _).trans hrunning
    have hcount := h.held j.id
    rw [hruns, Bool.toNat_true] at hcount
    have hheld : j.id ∈ p.holders := by
      apply List.count_pos_iff.mp
      exact Nat.lt_of_lt_of_eq Nat.one_pos hcount.symm
    apply List.mem_filter.mpr
    refine ⟨hmem, ?_⟩
    simp [hheld]
  have htotal : p.free + p.holding.length = n := by
    have hlength := (h.holding_perm haccounts).length_eq
    have hbooks := h.total
    rw [List.length_map, List.length_append] at hlength
    simp only [permits] at hbooks
    omega
  have hactive : ∀ j ∈ p.holding, j.hasEnded = false := by
    intro j hj
    obtain ⟨hmem, hgiven⟩ := List.mem_filter.mp hj
    have hjob := haccounts.job?_of_mem hmem
    rcases h.mem_given (by simpa using hgiven) with hwaits | hruns
    · rw [waits, isIn_of_job? hjob] at hwaits
      apply Job.not_ended_of_early
      simp [JobPhase.isEarly, hwaits]
    · rw [runs, isIn_of_job? hjob] at hruns
      exact Job.not_ended_of_running hruns
  refine ⟨htotal, h.given_nodup, hactive, hrunners, ?running_le, ?spare, ?restored⟩
  case running_le =>
    have hamong : p.jobs.filter (·.phase.isRunning) = p.holding.filter (·.phase.isRunning) := by
      rw [holding, List.filter_filter]
      apply List.filter_congr
      intro j hmem
      cases hrunning : j.phase.isRunning with
      | false => rfl
      | true => simpa using (List.mem_filter.mp (hrunners j hmem hrunning)).2
    have hle := List.length_filter_le (fun j : Job => j.phase.isRunning) p.holding
    rw [running, List.length_map, hamong]
    omega
  case spare =>
    intro hfree
    have hline := h.idle hfree
    simpa [permits] using hline
  case restored =>
    intro hover
    have hnone : p.holding = [] := by
      apply List.eq_nil_iff_forall_not_mem.mpr
      intro j hj
      have hmem : j ∈ p.active := by
        apply List.mem_filter.mpr
        simp [hactive j hj, (List.mem_filter.mp hj).1]
      rw [hover] at hmem
      cases hmem
    rw [hnone] at htotal
    simpa using htotal

/-- The permits of a pool with a limit. However its jobs come and go, and whatever way
their tasks end, the free permits and the jobs that hold one add up to the limit: no
job holds more than one or holds it when it has ended, every body that runs is covered
by one, and when all tasks have ended all permits are free. -/
theorem permits_conserved {config : Config} (hlimit : config.concurrencyLimit = some n) :
    (∀ moves, ((Pool.new config).run moves).Capped n) ∧
    ∀ s : Scenario, s.config = config → ∀ w, Scenario.Leads s.start w → w.pool.Capped n := by
  have hcapped (moves : List Move) : ((Pool.new config).run moves).Capped n :=
    (InBalance.run hlimit moves).capped (.run config moves)
  refine ⟨hcapped, ?_⟩
  rintro s rfl w hleads
  obtain ⟨moves, hmoves⟩ := hleads.pool
  rw [hmoves]
  exact hcapped moves

end Limit

/-- Of four jobs in a pool for two at once, one breaks off, one is aborted after it was
given a permit, one is aborted while it runs, and one overruns its deadline. -/
def mixedEndings : List Move :=
  let t : Ticket := ⟨0, 0⟩
  [.submit "first", .submit "second", .submit "third", .submit "fourth",
    .begin ⟨1⟩ t, .begin ⟨2⟩ t, .begin ⟨3⟩ t, .begin ⟨4⟩ t,
    .finish ⟨1⟩ (.panicked (.literal "lost")), .abort ⟨3⟩, .abort ⟨2⟩, .retry ⟨4⟩ t,
    .finish ⟨4⟩ (.overdue (Duration.ofParts 1 0))]

theorem permits_conserved_mixed :
    let config : Config := { maxConcurrentJobs := 2 }
    let midway := (Pool.new config).run (mixedEndings.take 9)
    let p := (Pool.new config).run mixedEndings
    config.concurrencyLimit = some 2 ∧ midway.Capped 2 ∧ p.Capped 2 ∧
      midway.free = 0 ∧ midway.granted = [⟨3⟩] ∧ midway.holders = [⟨2⟩] ∧
      p.jobs.map Job.hasEnded = [true, true, true, true] ∧ p.free = 2 := by
  intro config midway p
  have hlimit : config.concurrencyLimit = some 2 := by decide
  obtain ⟨hcapped, -⟩ := permits_conserved hlimit
  exact ⟨hlimit, hcapped _, hcapped _, by decide +kernel⟩

end EventHub.Pool
