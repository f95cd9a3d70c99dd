import EventHub.Proofs.Stores.Shutdown

/-!
Draining the pool. Between the turns of a shutdown the pool goes on by whatever moves:
jobs are submitted and end, and other shutdowns do the same. If the shutdown succeeds no
body runs, and none ever does again; if its grace runs out, a task has not ended by then.
Whoever was not started when the pool was closed never is.
-/

namespace EventHub.Simulation

namespace Sim

variable {w : World}

/-! ### The turns of a job in a closed pool -/

/-- A job whose task runs for the first time in a closed pool ends there, and its body is
not called. -/
theorem poll_task_of_closed (n : Nat) {id : JobId} (body : JobBody)
    (hclosed : w.pool.isClosed = true) (hphase : w.pool.isIn id (·.isSubmitted) = true) :
    ∃ t w', (poll (n + 1) (.begin (.task id body))).run w = (.value (.error .canceled), w') ∧
      w'.pool = w.pool.step (.begin id t) := by
  let t : Ticket := (ticket.run w).1
  let taken : World := (ticket.run w).2
  obtain ⟨q, -, hbegin⟩ := Pool.begin_of_closed hclosed id t
  have hrun : (begin (.task id body)).run w =
      (admitted id t body (w.pool.begin id t).2).run
        ((onPool (·.begin id t)).run taken).2 := by
    rw [begin]
    rfl
  refine ⟨t, ((onPool (·.begin id t)).run taken).2, ?_, ?_⟩
  · rw [poll_begin, hrun, hbegin]
    exact poll_value n _ _
  · have hpossible : Pool.Move.isPossible w.pool (.begin id t) = true := hphase
    rw [pool_onPool, Pool.step, if_pos hpossible]
    rfl

/-- A job that waits for a permit in a closed pool ends in its next turn, and its body is
not called. -/
theorem poll_permit_of_closed (n : Nat) {id : JobId} (t : Ticket) (body : JobBody)
    (hclosable : w.pool.Closable) (hclosed : w.pool.isClosed = true)
    (hphase : w.pool.isIn id (·.isWaiting) = true) :
    ∃ w', (poll (n + 1) (.wait (.permit id t body))).run w = (.value (.error .canceled), w') ∧
      w'.pool = w.pool.step (.retry id t) := by
  obtain ⟨q, -, hretry⟩ := Pool.retry_of_closed hclosable hclosed hphase t
  have hcheck : (check (.permit id t body)).run w =
      (Polled.of ((admitted id t body (w.pool.retry id t).2).run
        ((onPool (·.retry id t)).run w).2).1,
        ((admitted id t body (w.pool.retry id t).2).run ((onPool (·.retry id t)).run w).2).2) := by
    rw [check]
    rfl
  refine ⟨((onPool (·.retry id t)).run w).2, ?_, ?_⟩
  · rw [poll_wait, hcheck, hretry]
    exact poll_value n _ _
  · have hpossible : Pool.Move.isPossible w.pool (.retry id t) = true := hphase
    rw [pool_onPool, Pool.step, if_pos hpossible]
    rfl

end Sim

/-! ### All turns of a shutdown -/

/-- A computation comes to its outcome in turns of its own, each with the world before
and after it and with room for so many steps at least. Between them the pool goes on by
moves. -/
inductive Concludes {a : Shape} (least : Nat) :
    Pool → Future a → List (World × World) → Outcome a.Value → Prop
  | now {p : Pool} {f : Future a} {w w' : World} {o : Outcome a.Value} (n : Nat)
      (moves : List Pool.Move) (hpool : w.pool = p.run moves) (hroom : least ≤ n)
      (hturn : (Sim.poll n f).run w = (.done o, w')) : Concludes least p f [(w, w')] o
  | later {p : Pool} {f f' : Future a} {w w' : World} {turns : List (World × World)}
      {o : Outcome a.Value} (n : Nat) (moves : List Pool.Move) (hpool : w.pool = p.run moves)
      (hroom : least ≤ n) (hturn : (Sim.poll n f).run w = (f', w'))
      (hgoes : ∀ o, f' ≠ .done o) (hrest : Concludes least w'.pool f' turns o) :
      Concludes least p f ((w, w') :: turns) o

section

variable {grace : Duration} {seen more : List World} {p : Pool} {f : Future .drain}
  {turns : List (World × World)} {o : Outcome (Except RuntimeError Unit)}

theorem Shutdown.mono (h : Shutdown grace seen f) (hmore : ∀ w ∈ seen, w ∈ more) :
    Shutdown grace more f := by
  cases h with
  | entering things t => exact .entering things t
  | draining alarm t halarm =>
      obtain ⟨start, hstart, hdeadline⟩ := halarm
      exact .draining alarm t ⟨start, hmore start hstart, hdeadline⟩
  | exceeding things t hover => exact .exceeding things t (hover.mono hmore)

theorem Passes.onward {w w' : World} {moves : List Pool.Move} (h : Passes w w')
    (hpool : w.pool = p.run moves) : ∃ more, w'.pool = p.run more := by
  obtain ⟨own, hown⟩ := h.moves
  refine ⟨moves ++ own, ?_⟩
  rw [Pool.run_append, ← hpool]
  exact hown

/-- How a shutdown ends that has closed the pool. -/
theorem Shutdown.concludes (h : Concludes 7 p f turns o) (hstage : Shutdown grace seen f)
    (hclosed : p.isClosed = true) (hclosable : p.Closable) :
    ∃ last result, turns.getLast? = some last ∧ o = .returned result ∧
      (∃ moves, last.2.pool = p.run moves) ∧ last.2.pool.isClosed = true ∧
      Settled grace (seen ++ turns.map Prod.fst) last.2.pool result := by
  have hnext {p : Pool} {f f' : Future .drain} {w w' : World} {seen : List World} {n : Nat}
      {moves : List Pool.Move} (hstage : Shutdown grace seen f) (hpool : w.pool = p.run moves)
      (hclosed : p.isClosed = true) (hclosable : p.Closable) (hroom : 7 ≤ n)
      (hturn : (Sim.poll n f).run w = (f', w')) :
      Shutdown.Turn grace (seen ++ [w]) w (f', w') := by
    obtain ⟨k, rfl⟩ := Nat.exists_eq_add_of_le' hroom
    have hpoolClosed : w.pool.isClosed = true := by
      rw [hpool]
      exact Pool.isClosed_run hclosed moves
    have hpoolClosable : w.pool.Closable := by
      rw [hpool]
      exact hclosable.run moves
    have hstage' := hstage.mono fun v hv => List.mem_append_left [w] hv
    have hcomes := Sim.turn_later (k + 1) hstage' hpoolClosed hpoolClosable
      (List.mem_append_right seen List.mem_cons_self)
    rw [hturn] at hcomes
    exact hcomes
  induction h generalizing seen with
  | @now p f w w' o n moves hpool hroom hturn =>
      obtain ⟨hpasses, hclosed', hcomes⟩ := hnext hstage hpool hclosed hclosable hroom hturn
      rcases hcomes with ⟨result, hvalue, hsettled⟩ | hstage'
      · cases hvalue
        exact ⟨(w, w'), result, rfl, rfl, hpasses.onward hpool, hclosed', hsettled⟩
      · cases hstage'
  | @later p f f' w w' turns o n moves hpool hroom hturn hgoes hrest ih =>
      obtain ⟨hpasses, hclosed', hcomes⟩ := hnext hstage hpool hclosed hclosable hroom hturn
      obtain ⟨more, hmore⟩ := hpasses.onward hpool
      rcases hcomes with ⟨result, hvalue, -⟩ | hstage'
      · exact absurd hvalue (hgoes (.returned result))
      · have hclosable' : w'.pool.Closable := by
          rw [hmore]
          exact hclosable.run more
        obtain ⟨last, result, hlast, ho, ⟨rest, hrun⟩, hends⟩ := ih hstage' hclosed' hclosable'
        refine ⟨last, result, ?_, ho, ⟨more ++ rest, ?_⟩, ?_⟩
        · rw [List.getLast?_cons, hlast]
          rfl
        · rw [Pool.run_append, ← hmore]
          exact hrun
        · simpa using hends

/-- How a shutdown ends, from the call on. -/
theorem shutdown_concludes (h : Concludes 7 p (.begin (.shutdownPool grace)) turns o)
    (hclosable : p.Closable) :
    ∃ last result, turns.getLast? = some last ∧ o = .returned result ∧
      (∃ moves, last.2.pool = p.run moves) ∧ last.2.pool.isClosed = true ∧
      Settled grace (turns.map Prod.fst) last.2.pool result := by
  have hfirst {f' : Future .drain} {w w' : World} {n : Nat} {moves : List Pool.Move}
      (hpool : w.pool = p.run moves) (hroom : 7 ≤ n)
      (hturn : (Sim.poll n (.begin (.shutdownPool grace))).run w = (f', w')) :
      Shutdown.Turn grace [w] w (f', w') := by
    obtain ⟨k, rfl⟩ := Nat.exists_eq_add_of_le' hroom
    have hbefore : w.pool.Closable := by
      rw [hpool]
      exact hclosable.run moves
    have hcomes : Shutdown.Turn grace [w] w
        ((Sim.poll (k + 7) (.begin (.shutdownPool grace))).run w) :=
      Sim.turn_asked k hbefore (List.mem_singleton_self w)
    rw [hturn] at hcomes
    exact hcomes
  cases h with
  | @now _ _ w w' _ n moves hpool hroom hturn =>
      obtain ⟨hpasses, hclosed, hcomes⟩ := hfirst hpool hroom hturn
      rcases hcomes with ⟨result, hvalue, hdrained⟩ | hstage
      · cases hvalue
        exact ⟨(w, w'), result, rfl, rfl, hpasses.onward hpool, hclosed, hdrained⟩
      · cases hstage
  | @later _ _ f' w w' turns _ n moves hpool hroom hturn hgoes hrest =>
      obtain ⟨hpasses, hclosed, hcomes⟩ := hfirst hpool hroom hturn
      obtain ⟨more, hmore⟩ := hpasses.onward hpool
      rcases hcomes with ⟨result, hvalue, -⟩ | hstage
      · exact absurd hvalue (hgoes (.returned result))
      · have hclosable' : w'.pool.Closable := by
          rw [hmore]
          exact hclosable.run more
        obtain ⟨last, result, hlast, ho, ⟨rest, hrun⟩, hends⟩ :=
          hstage.concludes hrest hclosed hclosable'
        refine ⟨last, result, ?_, ho, ⟨more ++ rest, ?_⟩, hends⟩
        · rw [List.getLast?_cons, hlast]
          rfl
        · rw [Pool.run_append, ← hmore]
          exact hrun

end

/-- No body runs in the pool, and none ever will again. -/
theorem forever_idle {config : Config} {moves : List Pool.Move} {p : Pool}
    (hpool : p = (Pool.new config).run moves) (hclosed : p.isClosed = true)
    (hidle : ∀ id, p.runs id = false) (later : List Pool.Move) : (p.run later).running = [] := by
  have hclosable : p.Closable := by
    rw [hpool]
    exact (Pool.Closable.new config).run moves
  have haccounts := Pool.Accounts.run config (moves ++ later)
  rw [Pool.run_append, ← hpool] at haccounts
  apply List.eq_nil_iff_forall_not_mem.mpr
  intro entry hentry
  obtain ⟨j, hj, -⟩ := List.mem_map.mp hentry
  obtain ⟨hmem, hrunning⟩ := List.mem_filter.mp hj
  have hruns : (p.run later).runs j.id = true :=
    (Pool.isIn_of_job? (haccounts.job?_of_mem hmem) _).trans hrunning
  have hbefore := (Pool.subsides_run hclosable hclosed later).runs j.id hruns
  cases (hidle j.id).symm.trans hbefore

/-- The next turn of a job that has not started its body ends it as cancelled, and no body
is called. -/
structure RefusesJobs (w : World) : Prop where
  submitted : ∀ n id body, w.pool.isIn id (·.isSubmitted) = true →
    ∃ t w', (Sim.poll (n + 1) (.begin (.task id body))).run w = (.value (.error .canceled), w') ∧
      w'.pool = w.pool.step (.begin id t)
  waiting : ∀ n id t body, w.pool.isIn id (·.isWaiting) = true →
    ∃ w', (Sim.poll (n + 1) (.wait (.permit id t body))).run w =
        (.value (.error .canceled), w') ∧ w'.pool = w.pool.step (.retry id t)

/-- Draining is complete. Whoever was not started when the pool was closed, or came later,
is turned away: it is cancelled in its next turn, for which the closing wakes it, its body
is not called, and nobody sees it among the living. A shutdown that succeeds leaves a pool
in which no body runs or ever starts again, and one that gives up does so with a task
that had not ended when the grace was over. -/
theorem draining_complete (config : Config) :
    (∀ before after id, (((Pool.new config).run before).job? id = none ∨
        ((Pool.new config).run before).isIn id (·.isEarly) = true) →
      ((Pool.new config).run (before ++ .close :: after)).TurnedAway id) ∧
    (∀ (p : Pool) (id : JobId) (t : Ticket), (id, t) ∈ p.watchers → id ∈ p.children →
      id ∉ p.canceled → t ∈ p.close.outbox.wakes) ∧
    (∀ (w : World) (moves : List Pool.Move), w.pool = (Pool.new config).run moves →
      w.pool.isClosed = true → RefusesJobs w) ∧
    (∀ s : Scenario, s.config = config → ∀ w, Scenario.Leads s.start w →
      w.pool.isClosed = true → RefusesJobs w ∧
        ∀ id, (w.pool.job? id = none ∨ w.pool.isIn id (·.isEarly) = true) →
          ∀ w', Scenario.Leads w w' → w'.pool.TurnedAway id) ∧
    ∀ grace turns o, Concludes 7 (Pool.new config) (.begin (.shutdownPool grace)) turns o →
      ∃ last result, turns.getLast? = some last ∧ o = .returned result ∧
        Drained grace (turns.map Prod.fst) last.2.pool result ∧
        (result = .ok () → ∀ later, (last.2.pool.run later).running = []) := by
  have hrefuses (w : World) (moves : List Pool.Move)
      (hpool : w.pool = (Pool.new config).run moves) (hclosed : w.pool.isClosed = true) :
      RefusesJobs w := by
    have hclosable : w.pool.Closable := by
      rw [hpool]
      exact (Pool.Closable.new config).run moves
    exact ⟨fun n id body => Sim.poll_task_of_closed n body hclosed,
      fun n id t body => Sim.poll_permit_of_closed n t body hclosable hclosed⟩
  refine ⟨?turnedAway, ?woken, hrefuses, ?worlds, ?concludes⟩
  case turnedAway => exact fun before after id => Pool.turnedAway_run config before after
  case woken => exact fun p id t => Pool.wakes_close
  case worlds =>
    rintro s rfl w hleads hclosed
    obtain ⟨moves, hpool⟩ := hleads.pool
    refine ⟨hrefuses w moves hpool hclosed, ?_⟩
    intro id hunstarted w' hlater
    obtain ⟨later, hrun⟩ := hleads.pool_onward hlater
    rw [hrun]
    exact Pool.turnedAway_later hpool hclosed hunstarted later
  case concludes =>
    intro grace turns o hconcludes
    obtain ⟨last, result, hlast, ho, ⟨moves, hpool⟩, hclosed, hsettled⟩ :=
      shutdown_concludes hconcludes (.new config)
    have hdrained := hsettled.drained
    refine ⟨last, result, hlast, ho, hdrained, ?_⟩
    rintro rfl
    cases hdrained with
    | ok hidle => exact forever_idle hpool hclosed hidle

/-- In a pool for one at a time, one job runs, one is in line and one was just submitted. -/
def threeJobs : List Pool.Move :=
  [.submit "first", .submit "second", .submit "third", .begin ⟨1⟩ ⟨1, 0⟩, .begin ⟨2⟩ ⟨2, 0⟩]

def oneAtOnce : Config := { maxConcurrentJobs := 1 }

/-- Another one comes after the pool was closed, and each of them has its turn. -/
def lateTurns : List Pool.Move :=
  [.submit "fourth", .retry ⟨2⟩ ⟨2, 0⟩, .begin ⟨3⟩ ⟨3, 0⟩, .begin ⟨4⟩ ⟨4, 0⟩]

/-- A world with such a pool. -/
def worldOf (moves : List Pool.Move) : World :=
  { (Scenario.blank { config := oneAtOnce }) with pool := (Pool.new oneAtOnce).run moves }

def callsShutdown : Future .drain := .begin (.shutdownPool (.ofMillis 5))

/-- A turn of a shutdown. -/
def turnOf (f : Future .drain) (w : World) : Future .drain × World := (Sim.poll 20 f).run w

/-- What a shutdown has ended with. -/
def Future.drained? : Future .drain → Option (Except RuntimeError Unit)
  | .done (.returned result) => some result
  | _ => none

def Future.isDone : Future .drain → Bool
  | .done _ => true
  | _ => false

section

variable {p : Pool} {f : Future .drain} {w : World} {moves : List Pool.Move}
  {result : Except RuntimeError Unit}

theorem turn_of_drained? (h : (turnOf f w).1.drained? = some result) :
    turnOf f w = (.value result, (turnOf f w).2) := by
  refine Prod.ext ?_ rfl
  rw [Future.drained?.eq_def] at h
  split at h
  · rename_i hdone
    cases h
    exact hdone
  · cases h

theorem concludes_of_drained? (hpool : w.pool = p.run moves)
    (h : (turnOf f w).1.drained? = some result) :
    Concludes 7 p f [(w, (turnOf f w).2)] (.returned result) :=
  .now 20 moves hpool (by decide) (turn_of_drained? h)

theorem concludes_of_later {v : World} {more : List Pool.Move} (hpool : w.pool = p.run moves)
    (hwaits : (turnOf f w).1.isDone = false) (hrest : v.pool = (turnOf f w).2.pool.run more)
    (h : (turnOf (turnOf f w).1 v).1.drained? = some result) :
    Concludes 7 p f [(w, (turnOf f w).2), (v, (turnOf (turnOf f w).1 v).2)]
      (.returned result) := by
  refine .later 20 moves hpool (by decide) rfl ?_ (concludes_of_drained? hrest h)
  intro o hdone
  have hdone : (turnOf f w).1 = .done o := hdone
  rw [hdone] at hwaits
  cases hwaits

end

/-- The same world at a later time. -/
def restUntil (clock : Nat) (w : World) : World := { w with clock }

theorem pool_restUntil (clock : Nat) (w : World) : (restUntil clock w).pool = w.pool.run [] := rfl

theorem draining_complete_late :
    let p := (Pool.new oneAtOnce).run (threeJobs ++ .close :: lateTurns)
    p.TurnedAway ⟨2⟩ ∧ p.TurnedAway ⟨3⟩ ∧ p.TurnedAway ⟨4⟩ ∧
      p.jobs.map (·.hasEnded) = [false, true, true, true] ∧
      ⟨2, 0⟩ ∈ ((Pool.new oneAtOnce).run threeJobs).close.outbox.wakes ∧
      RefusesJobs (worldOf (threeJobs ++ [.close])) ∧
      (∃ turns last, Concludes 7 (Pool.new oneAtOnce) callsShutdown turns (.returned (.ok ())) ∧
        turns.getLast? = some last ∧ ∀ later, (last.2.pool.run later).running = []) ∧
      ∃ turns, Concludes 7 (Pool.new oneAtOnce) callsShutdown turns
          (.returned (.error (.graceExceeded (.ofMillis 5) ["first"]))) ∧
        Overdue (.ofMillis 5) (turns.map Prod.fst) := by
  obtain ⟨hturnedAway, hwoken, hrefuses, -, hconcludes⟩ := draining_complete oneAtOnce
  have hpool (moves : List Pool.Move) :
      (worldOf moves).pool = (Pool.new oneAtOnce).run moves := rfl
  have hunknown : ((Pool.new oneAtOnce).run threeJobs).job? ⟨4⟩ = none := by
    rw [Pool.job?, List.find?_eq_none]
    decide +kernel
  have hok : (turnOf callsShutdown (worldOf [])).1.drained? = some (.ok ()) := by decide +kernel
  have hidle := concludes_of_drained? (hpool []) hok
  have hstuck : (turnOf (turnOf callsShutdown (worldOf threeJobs)).1
      (restUntil 5 (turnOf callsShutdown (worldOf threeJobs)).2)).1.drained? =
        some (.error (.graceExceeded (.ofMillis 5) ["first"])) := by decide +kernel
  have hover := concludes_of_later (hpool threeJobs) (by decide +kernel) (pool_restUntil 5 _)
    hstuck
  obtain ⟨last, result, hlast, ho, -, hforever⟩ := hconcludes _ _ _ hidle
  obtain ⟨last', result', -, ho', hdrained, -⟩ := hconcludes _ _ _ hover
  rw [Outcome.returned.injEq] at ho ho'
  have hfailed : result' ≠ .ok () := by
    rw [← ho']
    rintro ⟨⟩
  refine ⟨hturnedAway threeJobs lateTurns ⟨2⟩ (Or.inr (by decide +kernel)),
    hturnedAway threeJobs lateTurns ⟨3⟩ (Or.inr (by decide +kernel)),
    hturnedAway threeJobs lateTurns ⟨4⟩ (Or.inl hunknown), by decide +kernel,
    hwoken _ ⟨2⟩ _ (by decide +kernel) (by decide +kernel) (by decide +kernel),
    hrefuses _ _ (hpool _) (by decide +kernel), ⟨_, last, hidle, hlast, hforever ho.symm⟩,
    _, hover, hdrained.overdue hfailed⟩

end EventHub.Simulation
