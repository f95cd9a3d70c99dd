import EventHub.Proofs.Pool.Closed
import EventHub.Proofs.Simulation.Step
import EventHub.Proofs.Stores.Reach

/-!
The turns of a shutdown of the pool. It closes the pool, then it waits for the last task
to end, under an alarm. In each turn it is said where it stands after it, or what it
says in the end: that no body runs, or that a task had not ended when the grace was
over.
-/

namespace EventHub.Simulation

/-- Time stands still, and the pool goes on by moves that leave the jobs alone. -/
structure Passes (w w' : World) : Prop where
  moves : ∃ moves, w'.pool = w.pool.run moves
  same : Pool.SameJobs w.pool w'.pool
  clock : w'.clock = w.clock

namespace Passes

variable {w w' w'' : World}

theorem of_eq (hpool : w'.pool = w.pool) (hclock : w'.clock = w.clock) : Passes w w' := by
  refine ⟨⟨[], hpool⟩, ?_, hclock⟩
  rw [hpool]
  exact .refl _

theorem refl (w : World) : Passes w w := of_eq rfl rfl

theorem trans (h : Passes w w') (h' : Passes w' w'') : Passes w w'' := by
  obtain ⟨first, hfirst⟩ := h.moves
  obtain ⟨second, hsecond⟩ := h'.moves
  refine ⟨⟨first ++ second, ?_⟩, h.same.trans h'.same, h'.clock.trans h.clock⟩
  rw [Pool.run_append, ← hfirst]
  exact hsecond

/-- A move that is always possible is made. -/
theorem move (m : Pool.Move) (hpossible : m.isPossible w.pool = true)
    (hsame : Pool.SameJobs w.pool (w.pool.act m))
    (hpool : w'.pool = { w.pool.act m with outbox := {} }) (hclock : w'.clock = w.clock) :
    Passes w w' := by
  have hstep : w.pool.step m = { w.pool.act m with outbox := {} } := by
    rw [Pool.step, if_pos hpossible]
  refine ⟨⟨[m], ?_⟩, ?_, hclock⟩
  · rw [hpool, ← hstep]
    rfl
  · rw [hpool]
    exact ⟨hsame.jobs, hsame.live⟩

end Passes

namespace Sim

variable {α : Type}

theorem clock_wakeTask (id : Nat) (w : World) : ((wakeTask id).run w).2.clock = w.clock := by
  simp only [wakeTask, run_modify]
  split
  · rfl
  · split
    · rfl
    · rfl
    · split
      · rfl
      · split <;> rfl

theorem clock_wakeAll (ts : List Ticket) (w : World) : ((wakeAll ts).run w).2.clock = w.clock := by
  induction ts generalizing w with
  | nil => rfl
  | cons t rest ih =>
      have hrest := ih ((wake t).run w).2
      exact hrest.trans (clock_wakeTask t.task w)

theorem clock_onPool (act : Pool → Pool × α) (w : World) :
    ((onPool act).run w).2.clock = w.clock :=
  clock_wakeAll (act w.pool).1.outbox.wakes _

theorem pool_onPool (act : Pool → Pool × α) (w : World) :
    ((onPool act).run w).2.pool = { (act w.pool).1 with outbox := {} } :=
  congrArg Stores.pool (onPool_run act w).2.stores

theorem passes_onPool (act : Pool → Pool × α) (m : Pool.Move) (w : World)
    (hpossible : m.isPossible w.pool = true) (hact : (act w.pool).1 = w.pool.act m)
    (hsame : Pool.SameJobs w.pool (w.pool.act m)) : Passes w ((onPool act).run w).2 := by
  apply Passes.move m hpossible hsame
  · rw [pool_onPool, hact]
  · exact clock_onPool act w

theorem passes_updatePool (act : Pool → Pool) (m : Pool.Move) (w : World)
    (hpossible : m.isPossible w.pool = true) (hact : act w.pool = w.pool.act m)
    (hsame : Pool.SameJobs w.pool (w.pool.act m)) : Passes w ((updatePool act).run w).2 :=
  passes_onPool (fun p => (act p, ())) m w hpossible hact hsame

theorem passes_defer (w : World) : Passes w (defer.run w).2 := by
  have hclock : (defer.run w).2.clock = w.clock := by
    simp only [defer, run_bind]
    split
    · exact clock_wakeTask _ w
    · split <;> rfl
  exact .of_eq (spares_defer w).pool hclock

theorem passes_taking (n things : Nat) (t : Ticket) (w : World) :
    Passes w ((poll n (.wait (.taking things t))).run w).2 := by
  refine .of_eq (poll_taking n things t w).1.pool ?_
  cases n with
  | zero => rfl
  | succ n =>
      rcases poll_taking_run n things t w with ⟨-, htaken⟩ | ⟨-, hwaits⟩
      · rw [htaken]
        rfl
      · rw [hwaits]
        exact (passes_defer _).clock

theorem passes_isDue (alarm : Alarm) (w : World) :
    Passes w ((isDue alarm).run w).2 ∧
      (((isDue alarm).run w).1 = true → alarm.deadline ≤ w.clock) := by
  have hget : (get : Sim World).run w = (w, w) := rfl
  simp only [isDue, run_bind, hget]
  split
  · rename_i hdue
    exact ⟨.refl w, fun _ => hdue⟩
  · split <;> exact ⟨.of_eq rfl rfl, fun hrings => by cases hrings⟩

/-- Whoever takes things goes on with what comes next, or takes the rest later. -/
theorem poll_taking_andThen {a : Shape} (n things : Nat) (t : Ticket) (next : Begin a)
    (w : World) :
    (∃ things' w', Passes w w' ∧
      (poll (n + 1) (.bind (.wait (.taking things t)) (.andThen next))).run w =
        (.bind (.wait (.taking things' t)) (.andThen next), w')) ∨
      ∃ w', Passes w w' ∧
        (poll (n + 1) (.bind (.wait (.taking things t)) (.andThen next))).run w =
          (poll n (.begin next)).run w' := by
  have hpasses := passes_taking n things t w
  obtain ⟨-, htaken⟩ := poll_taking n things t w
  rw [poll_bind]
  generalize (poll n (.wait (.taking things t))).run w = polled at hpasses htaken
  obtain ⟨f, w'⟩ := polled
  rcases htaken with hf | ⟨things', hf⟩
  · right
    obtain rfl : f = .value () := hf
    refine ⟨w', hpasses, ?_⟩
    simp only [Future.value]
    rw [resume_andThen]
  · left
    obtain rfl : f = .wait (.taking things' t) := hf
    exact ⟨things', w', hpasses, rfl⟩

/-- An alarm rings only when it is due. -/
theorem passes_rings (alarm : Alarm) (couldTake : Bool) (w : World) :
    Passes w ((rings alarm couldTake).run w).2 ∧
      (((rings alarm couldTake).run w).1 = true → alarm.deadline ≤ w.clock) := by
  have hspent : (isSpent.run w).2 = w := rfl
  have hdue := passes_isDue alarm w
  simp only [rings, run_bind, hspent]
  split
  · split
    · exact hdue
    · exact ⟨passes_defer w, fun hrings => by cases hrings⟩
  · rw [run_bind]
    generalize (isDue alarm).run w = looked at hdue
    obtain ⟨isOver, w'⟩ := looked
    obtain ⟨hpasses, hdue⟩ := hdue
    cases isOver with
    | true => exact ⟨hpasses.trans (.of_eq rfl rfl), fun _ => hdue rfl⟩
    | false => exact ⟨hpasses, fun hrings => by cases hrings⟩

/-- Looking whether the pool is drained: it is, or the call stands in line. -/
theorem check_drained (t : Ticket) (w : World) :
    Passes w ((check (.drained t)).run w).2 ∧
      ((w.pool.isDrained t = true ∧ ((check (.drained t)).run w).1 = .next (.value ())) ∨
        (w.pool.isDrained t = false ∧
          ((check (.drained t)).run w).1 = .pending (.drained t))) := by
  have hget : (get : Sim World).run w = (w, w) := rfl
  have hleave := passes_updatePool (·.act (.leaveDrain t)) (.leaveDrain t) w rfl rfl ⟨rfl, rfl⟩
  have henter := passes_updatePool (·.act (.drain t)) (.drain t) w rfl rfl ⟨rfl, rfl⟩
  rw [check]
  simp only [run_bind, hget, waitUntil]
  cases hdrained : w.pool.isDrained t with
  | true => exact ⟨hleave, Or.inl ⟨rfl, rfl⟩⟩
  | false => exact ⟨henter, Or.inr ⟨rfl, rfl⟩⟩

theorem passes_unset (alarm : Alarm) (w : World) : Passes w ((unset alarm).run w).2 :=
  .of_eq rfl rfl

theorem poll_drained (n : Nat) (t : Ticket) (w : World) :
    Passes w ((poll (n + 1) (.wait (.drained t))).run w).2 ∧
      ((w.pool.isDrained t = true ∧
          ((poll (n + 1) (.wait (.drained t))).run w).1 = .value ()) ∨
        (w.pool.isDrained t = false ∧
          ((poll (n + 1) (.wait (.drained t))).run w).1 = .wait (.drained t))) := by
  obtain ⟨hpasses, hlooked⟩ := check_drained t w
  rw [poll_wait]
  generalize (check (.drained t)).run w = looked at hpasses hlooked
  obtain ⟨p, w'⟩ := looked
  rcases hlooked with ⟨hdrained, hp⟩ | ⟨hdrained, hp⟩
  · obtain rfl : p = .next (.value ()) := hp
    dsimp only
    rw [poll_value]
    exact ⟨hpasses, Or.inl ⟨hdrained, rfl⟩⟩
  · obtain rfl : p = .pending (.drained t) := hp
    exact ⟨hpasses, Or.inr ⟨hdrained, rfl⟩⟩

/-- Waiting for the last task to end, for as long as the alarm lets it. -/
theorem poll_within_drained (n : Nat) (alarm : Alarm) (t : Ticket) (w : World) :
    ∃ w', Passes w w' ∧
      ((w.pool.isDrained t = true ∧
          (poll (n + 2) (.within alarm (.wait (.drained t)))).run w = (.value (some ()), w')) ∨
        (w.pool.isDrained t = false ∧ alarm.deadline ≤ w.clock ∧
          (poll (n + 2) (.within alarm (.wait (.drained t)))).run w = (.value none, w')) ∨
        (poll (n + 2) (.within alarm (.wait (.drained t)))).run w =
          (.within alarm (.wait (.drained t)), w')) := by
  have hspent : (isSpent.run w).2 = w := rfl
  obtain ⟨hpasses, hpolled⟩ := poll_drained n t w
  rw [poll]
  simp only [run_bind, hspent]
  generalize (isSpent.run w).1 = spent
  generalize (poll (n + 1) (.wait (.drained t))).run w = polled at hpasses hpolled
  obtain ⟨f, w'⟩ := polled
  rcases hpolled with ⟨hdrained, hf⟩ | ⟨hdrained, hf⟩
  · obtain rfl : f = .value () := hf
    exact ⟨_, hpasses.trans (passes_unset alarm w'), Or.inl ⟨hdrained, rfl⟩⟩
  · obtain rfl : f = .wait (.drained t) := hf
    obtain ⟨hrung, hdue⟩ := passes_rings alarm (!spent) w'
    simp only [run_bind]
    generalize (rings alarm (!spent)).run w' = rung at hrung hdue
    obtain ⟨isOver, w''⟩ := rung
    cases isOver with
    | false => exact ⟨_, hpasses.trans hrung, Or.inr (Or.inr rfl)⟩
    | true =>
        have hdropped := passes_updatePool (·.act (.leaveDrain t)) (.leaveDrain t) w'' rfl rfl
          ⟨rfl, rfl⟩
        have hdeadline : alarm.deadline ≤ w.clock := by
          rw [← hpasses.clock]
          exact hdue rfl
        exact ⟨_, ((hpasses.trans hrung).trans hdropped).trans (passes_unset alarm _),
          Or.inr (Or.inl ⟨hdrained, hdeadline, rfl⟩)⟩

end Sim

/-! ### The stages of a shutdown -/

/-- The grace of a shutdown ran out with a task that had not ended: so it was when one of
its turns began, as long after another as the grace lasts. -/
def Overdue (grace : Duration) (seen : List World) : Prop :=
  ∃ start ∈ seen, ∃ due ∈ seen,
    start.clock + grace.timerMillis ≤ due.clock ∧ due.pool.active ≠ []

theorem Overdue.mono {grace : Duration} {seen more : List World} (h : Overdue grace seen)
    (hmore : ∀ w ∈ seen, w ∈ more) : Overdue grace more := by
  obtain ⟨start, hstart, due, hdue, hover⟩ := h
  exact ⟨start, hmore start hstart, due, hmore due hdue, hover⟩

/-- Where a shutdown stands whose turns began in these worlds. -/
inductive Shutdown (grace : Duration) (seen : List World) : Future .drain → Prop
  | entering (things : Nat) (t : Ticket) :
      Shutdown grace seen (.bind (.wait (.taking things t)) (.andThen (.drain grace)))
  | draining (alarm : Alarm) (t : Ticket)
      (halarm : ∃ start ∈ seen, alarm.deadline = start.clock + grace.timerMillis) :
      Shutdown grace seen (.bind (.within alarm (.wait (.drained t))) (.drainEnd grace))
  | exceeding (things : Nat) (t : Ticket) (hover : Overdue grace seen) :
      Shutdown grace seen (.bind (.wait (.taking things t)) (.andThen (.graceOver grace)))

/-- What a shutdown says in the end, and what that means for the pool. -/
inductive Drained (grace : Duration) (seen : List World) (p : Pool) :
    Except RuntimeError Unit → Prop
  | ok (hidle : ∀ id, p.runs id = false) : Drained grace seen p (.ok ())
  | exceeded (hover : Overdue grace seen) :
      Drained grace seen p (.error (.graceExceeded grace p.liveNames))

/-- What it found before: in one of its turns the pool let it go on, or the grace ran out. -/
inductive Settled (grace : Duration) (seen : List World) (p : Pool) :
    Except RuntimeError Unit → Prop
  | ok {w : World} {q : Pool} (t : Ticket) (hseen : w ∈ seen) (hturn : ∃ own, q = w.pool.run own)
      (hdrained : q.isDrained t = true) (hsince : ∃ rest, p = q.run rest)
      (hidle : ∀ id, p.runs id = false) : Settled grace seen p (.ok ())
  | exceeded (hover : Overdue grace seen) :
      Settled grace seen p (.error (.graceExceeded grace p.liveNames))

theorem Settled.drained {grace : Duration} {seen : List World} {p : Pool}
    {result : Except RuntimeError Unit} (h : Settled grace seen p result) :
    Drained grace seen p result := by
  cases h with
  | ok t hseen hturn hdrained hsince hidle => exact .ok hidle
  | exceeded hover => exact .exceeded hover

theorem Drained.overdue {grace : Duration} {seen : List World} {p : Pool}
    {result : Except RuntimeError Unit} (h : Drained grace seen p result)
    (hfailed : result ≠ .ok ()) : Overdue grace seen := by
  cases h with
  | ok hidle => exact absurd rfl hfailed
  | exceeded hover => exact hover

/-- What a turn of a shutdown comes to that began in the world `w`. -/
def Shutdown.Turn (grace : Duration) (seen : List World) (w : World)
    (r : Future .drain × World) : Prop :=
  Passes w r.2 ∧ r.2.pool.isClosed = true ∧
    ((∃ result, r.1 = .value result ∧ Settled grace seen r.2.pool result) ∨
      Shutdown grace seen r.1)

namespace Sim

variable {grace : Duration} {seen : List World} {w v : World}

theorem isClosed_passes (h : Passes w v) (hclosed : w.pool.isClosed = true) :
    v.pool.isClosed = true := by
  obtain ⟨moves, hmoves⟩ := h.moves
  rw [hmoves]
  exact Pool.isClosed_run hclosed moves

/-- The grace is over, which the shutdown says as soon as it may. -/
theorem turn_exceeding (n things : Nat) (t : Ticket) (hpasses : Passes w v)
    (hclosed : v.pool.isClosed = true) (hover : Overdue grace seen) :
    Shutdown.Turn grace seen w
      ((poll (n + 2) (.bind (.wait (.taking things t)) (.andThen (.graceOver grace)))).run v) := by
  rcases poll_taking_andThen (n + 1) things t (.graceOver grace) v with
    ⟨things', v', hturn, hpoll⟩ | ⟨v', hturn, hpoll⟩
  · rw [hpoll]
    exact ⟨hpasses.trans hturn, isClosed_passes hturn hclosed,
      Or.inr (.exceeding things' t hover)⟩
  · have hbegin : (begin (.graceOver grace)).run v' =
        (.value (.error (.graceExceeded grace v'.pool.liveNames)),
          ((onPool (·.graceExceeded grace)).run v').2) := by
      rw [begin]
      rfl
    have hsaid := passes_onPool (·.graceExceeded grace) (.exceed grace) v' rfl rfl ⟨rfl, rfl⟩
    have hlive : ((onPool (·.graceExceeded grace)).run v').2.pool.liveNames =
        v'.pool.liveNames := by
      rw [Pool.liveNames, hsaid.same.live]
      rfl
    rw [hpoll, poll_begin, hbegin]
    simp only [poll_value]
    refine ⟨(hpasses.trans hturn).trans hsaid, isClosed_passes (hturn.trans hsaid) hclosed, ?_⟩
    rw [← hlive]
    exact Or.inl ⟨_, rfl, .exceeded hover⟩

/-- No body runs in a pool that lets a shutdown go on. -/
theorem idle_of_drained {p : Pool} {t : Ticket} (h : p.Closable) (hdrained : p.isDrained t = true)
    (id : JobId) : p.runs id = false := by
  rw [Pool.isDrained, Bool.or_eq_true, Bool.and_eq_true, List.isEmpty_iff] at hdrained
  rcases hdrained with ⟨-, hactive⟩ | hmem
  · exact Pool.runs_of_active_nil hactive id
  · apply (h.drained ?_).2
    intro hnone
    have hdrained : p.drained = [] := hnone
    simp [hdrained] at hmem

/-- The shutdown waits for the last task, goes on when it has ended, or gives up. -/
theorem turn_draining (n : Nat) (alarm : Alarm) (t : Ticket) (hpasses : Passes w v)
    (hclosed : v.pool.isClosed = true) (hclosable : v.pool.Closable) (hseen : w ∈ seen)
    (halarm : ∃ start ∈ seen, alarm.deadline = start.clock + grace.timerMillis) :
    Shutdown.Turn grace seen w
      ((poll (n + 4) (.bind (.within alarm (.wait (.drained t))) (.drainEnd grace))).run v) := by
  obtain ⟨v', hturn, hpolled⟩ := poll_within_drained (n + 1) alarm t v
  have hclosed' := isClosed_passes hturn hclosed
  rw [poll_bind]
  rcases hpolled with ⟨hdrained, hpoll⟩ | ⟨hdrained, hdue, hpoll⟩ | hpoll
  · have hended := passes_updatePool (·.drainEnded) .noteDrained v' rfl rfl ⟨rfl, rfl⟩
    have hresume : (resume (.drainEnd grace) (.returned (some ()))).run v' =
        (.value (.ok ()), ((updatePool (·.drainEnded)).run v').2) := by
      rw [resume]
      rfl
    have hsame := hturn.trans hended
    rw [hpoll]
    simp only [Future.value]
    rw [hresume, poll_value]
    refine ⟨hpasses.trans hsame, isClosed_passes hended hclosed', Or.inl ⟨_, rfl, ?_⟩⟩
    refine .ok t hseen hpasses.moves hdrained hsame.moves ?_
    rw [Pool.runs_congr hsame.same.jobs]
    exact idle_of_drained hclosable hdrained
  · have hresume : ∃ t', (resume (.drainEnd grace) (.returned none)).run v' =
        (.bind (.wait (.taking 1 t')) (.andThen (.graceOver grace)), (ticket.run v').2) := by
      rw [resume]
      exact ⟨_, rfl⟩
    obtain ⟨t', hresume⟩ := hresume
    have hticket : Passes v' (ticket.run v').2 := .of_eq rfl rfl
    obtain ⟨start, hstart, hdeadline⟩ := halarm
    have hover : Overdue grace seen := by
      refine ⟨start, hstart, w, hseen, ?_, ?_⟩
      · rw [← hdeadline, ← hpasses.clock]
        exact hdue
      · have hactive : v.pool.active ≠ [] := by
          intro hnone
          simp [Pool.isDrained, hclosed, hnone] at hdrained
        rw [Pool.active, hpasses.same.jobs] at hactive
        exact hactive
    rw [hpoll]
    simp only [Future.value]
    rw [hresume]
    exact turn_exceeding (n + 1) 1 t' ((hpasses.trans hturn).trans hticket)
      (isClosed_passes hticket hclosed') hover
  · rw [hpoll]
    exact ⟨hpasses.trans hturn, hclosed', Or.inr (.draining alarm t halarm)⟩

/-- The shutdown looks at the closed pool and sets its alarm. -/
theorem turn_entered (n : Nat) (hpasses : Passes w v) (hclosed : v.pool.isClosed = true)
    (hclosable : v.pool.Closable) (hseen : w ∈ seen) :
    Shutdown.Turn grace seen w ((poll (n + 5) (.begin (.drain grace))).run v) := by
  let noted := ((updatePool (·.noteDrain grace)).run v).2
  have hnoted : Passes v noted :=
    passes_updatePool (·.noteDrain grace) (.noteDrain grace) v rfl rfl ⟨rfl, rfl⟩
  have hbegin : ∃ alarm t v', Passes noted v' ∧
      alarm.deadline = noted.clock + grace.timerMillis ∧
      (begin (.drain grace)).run v =
        (.bind (.within alarm (.wait (.drained t))) (.drainEnd grace), v') := by
    rw [begin]
    refine ⟨_, _, _, ?_, ?_, rfl⟩
    · exact .of_eq rfl rfl
    · rfl
  obtain ⟨alarm, t, v', hset, hdeadline, hbegin⟩ := hbegin
  have hturn := hnoted.trans hset
  rw [poll_begin, hbegin]
  apply turn_draining n alarm t (hpasses.trans hturn) (isClosed_passes hturn hclosed) ?_ hseen
  · refine ⟨w, hseen, ?_⟩
    rw [hdeadline, hnoted.clock, hpasses.clock]
  · obtain ⟨moves, hmoves⟩ := hturn.moves
    rw [hmoves]
    exact hclosable.run moves

theorem turn_entering (n things : Nat) (t : Ticket) (hpasses : Passes w v)
    (hclosed : v.pool.isClosed = true) (hclosable : v.pool.Closable) (hseen : w ∈ seen) :
    Shutdown.Turn grace seen w
      ((poll (n + 6) (.bind (.wait (.taking things t)) (.andThen (.drain grace)))).run v) := by
  rcases poll_taking_andThen (n + 5) things t (.drain grace) v with
    ⟨things', v', hturn, hpoll⟩ | ⟨v', hturn, hpoll⟩
  · rw [hpoll]
    exact ⟨hpasses.trans hturn, isClosed_passes hturn hclosed, Or.inr (.entering things' t)⟩
  · obtain ⟨moves, hmoves⟩ := hturn.moves
    rw [hpoll]
    apply turn_entered n (hpasses.trans hturn) (isClosed_passes hturn hclosed) ?_ hseen
    rw [hmoves]
    exact hclosable.run moves

/-- The first thing a shutdown does is to close the pool. -/
theorem turn_asked (n : Nat) (hclosable : w.pool.Closable) (hseen : w ∈ seen) :
    Shutdown.Turn grace seen w ((poll (n + 7) (.begin (.shutdownPool grace))).run w) := by
  let closed := ((updatePool (·.close)).run w).2
  have hclose : Passes w closed :=
    passes_updatePool (·.close) .close w rfl rfl (.close w.pool)
  have hbegin : ∃ t v, Passes closed v ∧ (begin (.shutdownPool grace)).run w =
      (.bind (.wait (.taking 1 t)) (.andThen (.drain grace)), v) := by
    rw [begin]
    refine ⟨_, _, ?_, rfl⟩
    exact .of_eq rfl rfl
  obtain ⟨t, v, hticket, hbegin⟩ := hbegin
  have hclosed : closed.pool.isClosed = true := by
    have hpool := pool_onPool (fun p => (p.close, ())) w
    exact (congrArg Pool.isClosed hpool).trans (Pool.isClosed_close w.pool)
  have hturn := hclose.trans hticket
  obtain ⟨moves, hmoves⟩ := hturn.moves
  rw [poll_begin, hbegin]
  apply turn_entering n 1 t hturn (isClosed_passes hticket hclosed) ?_ hseen
  rw [hmoves]
  exact hclosable.run moves

/-- A later turn of a shutdown. -/
theorem turn_later (n : Nat) {f : Future .drain} (hstage : Shutdown grace seen f)
    (hclosed : w.pool.isClosed = true) (hclosable : w.pool.Closable) (hseen : w ∈ seen) :
    Shutdown.Turn grace seen w ((poll (n + 6) f).run w) := by
  cases hstage with
  | entering things t => exact turn_entering n things t (.refl w) hclosed hclosable hseen
  | draining alarm t halarm =>
      exact turn_draining (n + 2) alarm t (.refl w) hclosed hclosable hseen halarm
  | exceeding things t hover => exact turn_exceeding (n + 4) things t (.refl w) hclosed hover

end Sim

end EventHub.Simulation
