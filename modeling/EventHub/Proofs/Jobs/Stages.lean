import EventHub.Proofs.Delivery.Course
import EventHub.Proofs.Panics.Closures
import EventHub.Proofs.Pool.Cancellation
import EventHub.Proofs.Pool.Deadline

/-!
The turns of the task of a job. In the first ones it asks the pool whether its body may run. Then
the body is called, under the deadline of the pool, and has a part of each turn until it ends, by
itself or because its time is over. What it has come to is told to the pool in the same turn or
in the next one.
-/

namespace EventHub

namespace Pool

variable {p q : Pool} {id : JobId}

/-- A closed pool has answered the task of a job that the job is cancelled. -/
inductive Refused (id : JobId) : Pool → Prop
  | begin (p : Pool) (t : Ticket) (hclosed : p.isClosed = true)
      (hanswer : (p.begin id t).2 = .canceled) : Refused id { (p.begin id t).1 with outbox := {} }
  | retry (p : Pool) (t : Ticket) (hclosed : p.isClosed = true)
      (hanswer : (p.retry id t).2 = .canceled) : Refused id { (p.retry id t).1 with outbox := {} }

/-- The token of a job that has no result is cancelled only by the closing of the pool. -/
theorem WellCanceled.isClosed (h : p.WellCanceled) (hnone : p.result? id = none)
    (hcanceled : id ∈ p.canceled) : p.isClosed = true := by
  rcases h id hcanceled with hclosed | ⟨deadline, hresult⟩
  · exact hclosed
  · cases hnone.symm.trans hresult

theorem isClosed_of_begin (h : p.WellCanceled) (hnone : p.result? id = none) {t : Ticket}
    (hanswer : (p.begin id t).2 = .canceled) : p.isClosed = true := by
  have hcanceled : (p.withToken id).isCanceled id = true := by
    have hbegun := p.begun id t
    generalize p.begin id t = r at hbegun hanswer
    cases hbegun with
    | refusedFreely hcanceled => exact hcanceled
    | refused hcanceled => exact hcanceled
    | _ => cases hanswer
  rcases (mem_canceled_withToken p id id).mp (of_decide_eq_true hcanceled) with hmem | ⟨hclosed, -⟩
  · exact h.isClosed hnone hmem
  · exact hclosed

theorem isClosed_of_retry (h : p.WellCanceled) (hnone : p.result? id = none) {t : Ticket}
    (hanswer : (p.retry id t).2 = .canceled) : p.isClosed = true := by
  rw [retry] at hanswer
  split at hanswer
  · rename_i hcanceled
    exact h.isClosed hnone (of_decide_eq_true hcanceled)
  · split at hanswer <;> cases hanswer

theorem isSome_job?_of_conclude {result : JobResult}
    (h : ((q.conclude id result).job? id).isSome) : (q.job? id).isSome := by
  have hfound : (q.conclude id result).job? id = (q.setPhase id (.ended result)).job? id := by
    simp only [job?, (q.conclude_jobs id result).1]
  rw [hfound, job?_setPhase, Option.isSome_map] at h
  exact h

theorem result?_refuse (hknown : ((q.refuse id).job? id).isSome) :
    (q.refuse id).result? id = some (.error .canceled) :=
  result?_conclude rfl (isSome_job?_of_conclude hknown) _

/-- A job that was refused is over. -/
theorem Refused.result? (h : Refused id p) (hknown : (p.job? id).isSome) :
    p.result? id = some (.error .canceled) := by
  cases h with
  | begin p t _ hanswer =>
      change ((p.begin id t).1.job? id).isSome at hknown
      change (p.begin id t).1.result? id = _
      have hbegun := p.begun id t
      generalize p.begin id t = r at hbegun hanswer hknown
      cases hbegun with
      | refusedFreely _ => exact result?_refuse hknown
      | refused _ => exact result?_refuse hknown
      | _ => cases hanswer
  | retry p t _ hanswer =>
      change ((p.retry id t).1.job? id).isSome at hknown
      change (p.retry id t).1.result? id = _
      rw [Pool.retry] at hanswer hknown ⊢
      split at hanswer
      · rename_i hcanceled
        rw [if_pos hcanceled] at hknown ⊢
        exact result?_refuse hknown
      · split at hanswer <;> cases hanswer

/-- The result of a job whose body has ended like this, or which was cancelled. -/
def resultOf : Option BodyEnd → JobResult
  | some ending => ending.result
  | none => .error .canceled

/-- The pool was told what the job has come to. If its time was over, its token is cancelled. -/
structure Told (id : JobId) (ending : Option BodyEnd) (p : Pool) : Prop where
  result : p.result? id = some (resultOf ending)
  canceled : ∀ deadline, ending = some (.overdue deadline) → id ∈ p.canceled

theorem Told.of_canceled (h : p.result? id = some (.error .canceled)) : Told id none p :=
  ⟨h, fun _ h => by cases h⟩

theorem Told.run {ending : Option BodyEnd} (h : Told id ending p) (moves : List Move) :
    Told id ending (p.run moves) :=
  ⟨result?_run h.result moves, fun deadline hdue => canceled_run (h.canceled deadline hdue) moves⟩

theorem told_finish {ending : BodyEnd} (hknown : ((p.finish id ending).job? id).isSome) :
    Told id (some ending) (p.finish id ending) := by
  refine ⟨result?_finish hknown, ?_⟩
  rintro deadline ⟨⟩
  exact (mem_canceled_act p (.finish id (.overdue deadline)) id).mpr (Or.inr rfl)

end Pool

namespace Simulation

variable {a : Shape} {limit : Option Duration} {job : JobId} {body : JobBody} {n : Nat}
  {w w' : World}

/-! ### What the allowance is spent on -/

namespace Sim

variable {α : Type}

theorem allowance_wakeTask (id : Nat) (w : World) :
    ((wakeTask id).run w).2.allowance = w.allowance := by
  simp only [wakeTask, run_modify]
  split
  · rfl
  · split
    · rfl
    · rfl
    · split
      · rfl
      · split <;> rfl

theorem allowance_wakeAll (ts : List Ticket) (w : World) :
    ((wakeAll ts).run w).2.allowance = w.allowance := by
  induction ts generalizing w with
  | nil => rfl
  | cons t rest ih => exact (ih ((wake t).run w).2).trans (allowance_wakeTask t.task w)

theorem allowance_onPool (act : Pool → Pool × α) (w : World) :
    ((onPool act).run w).2.allowance = w.allowance :=
  allowance_wakeAll (act w.pool).1.outbox.wakes _

end Sim

/-! ### Stages -/

/-- What tells that the time of a body is over that runs since then. -/
def alarmSince (limit : Option Duration) (start : Nat) (t : Ticket) : Option Alarm :=
  limit.map fun d => { ticket := t, deadline := start + d.timerMillis }

/-- A body that runs since then. It is given up when its time is over. -/
def runningBody (limit : Option Duration) (job : JobId) (start : Nat) (t : Ticket)
    (code : Future .job) : Future .job :=
  .bind (code.guarded (alarmSince limit start t)) (.bodyEnd job limit)

/-- A task that is about to tell the pool how the body has ended. -/
def telling (job : JobId) (ending : Pool.BodyEnd) (t : Ticket) : Future .job :=
  .bind (.wait (.taking 1 t)) (.andThen (.finishJob job ending))

/-- In these turns the task of a job has only asked the pool whether the body may run. -/
structure Waited (job : JobId) (body : JobBody) (turns : List (World × World))
    (f : Future .job) : Prop where
  advances : Advances (.begin (.task job body)) turns f
  queued : Queued job body f
  goes : ∀ o, f ≠ .done o

/-- No time passes, and what the tasks run is left alone. -/
structure SameMoment (w w' : World) : Prop where
  clock : w'.clock = w.clock
  untouched : Untouched w w'

/-- A part of a turn. It begins when the turn does, and what comes after it leaves alone what the
tasks run. -/
structure Within (part turn : World × World) : Prop where
  before : SameMoment turn.1 part.1
  after : Untouched part.2 turn.2

/-- A body has a part of each of these turns: of the first one from its call on, to which the task
comes in the midst of the turn, and of the others from where they begin. -/
structure Parts (limit : Option Duration) (job : JobId) (body : JobBody) (f : Future .job)
    (own turns : List (World × World)) : Prop where
  called : ∃ n n' t first turn, own.head? = some first ∧ turns.head? = some turn ∧
    (Sim.poll n f).run turn.1 =
      (Sim.poll n' (runningBody limit job first.1.clock t (.begin (.body job body)))).run first.1
  within : List.Forall₂ Within own turns
  begins : (own.map Prod.fst).tail = (turns.map Prod.fst).tail

/-- A body was not overdue when these parts of its turns were over. -/
def InTime (limit : Option Duration) (own : List (World × World)) : Prop :=
  ∀ d, limit = some d → ∀ first, own.head? = some first →
    ∀ part ∈ own, part.2.clock < first.1.clock + d.timerMillis

/-- How the only run of a body ends: it returns, or it breaks off, or it has not ended when its
time is over, which is counted from its call. -/
inductive BodyEnds (limit : Option Duration) (job : JobId) (body : JobBody)
    (own : List (World × World)) : Pool.BodyEnd → Prop
  | returned (result : JobResult) (hbody : Runs (.begin (.body job body)) own (.returned result)) :
      BodyEnds limit job body own (.returned result)
  | panicked (payload : Payload) (hbody : Runs (.begin (.body job body)) own (.panicked payload)) :
      BodyEnds limit job body own (.panicked payload)
  | overdue (d : Duration) (code : Future .job) (first last : World × World)
      (hlimit : limit = some d) (hbody : Advances (.begin (.body job body)) own code)
      (hgoes : ∀ o, code ≠ .done o) (hfirst : own.head? = some first)
      (hlast : own.getLast? = some last)
      (hdue : first.1.clock + d.timerMillis ≤ last.2.clock) :
      BodyEnds limit job body own (.overdue d)

/-- Where the task of a job stands that has had these turns. -/
inductive JobStage (limit : Option Duration) (job : JobId) (body : JobBody) :
    List (World × World) → Future .job → Prop
  | queued {turns : List (World × World)} {f : Future .job} (h : Waited job body turns f) :
      JobStage limit job body turns f
  | running {before turns own : List (World × World)} {f code : Future .job}
      {first : World × World} (t : Ticket) (hwaited : Waited job body before f)
      (hparts : Parts limit job body f own turns)
      (hbody : Advances (.begin (.body job body)) own code) (hgoes : ∀ o, code ≠ .done o)
      (hearly : InTime limit own) (hfirst : own.head? = some first) :
      JobStage limit job body (before ++ turns) (runningBody limit job first.1.clock t code)
  | telling {before turns own : List (World × World)} {f : Future .job}
      (ending : Pool.BodyEnd) (t : Ticket) (hwaited : Waited job body before f)
      (hparts : Parts limit job body f own turns) (hearly : InTime limit own.dropLast)
      (hends : BodyEnds limit job body own ending) :
      JobStage limit job body (before ++ turns) (telling job ending t)

/-- What a job has come to after these turns of its task, which was taken away or not. The body has
ended, in the last turn or in the one before it; or a closed pool has refused to call the body; or
the task was taken away before it came to anything. -/
inductive JobEnds (limit : Option Duration) (job : JobId) (body : JobBody) :
    List (World × World) → Bool → Option Pool.BodyEnd → Prop
  | ended {before turns rest own : List (World × World)} {f : Future .job} (ending : Pool.BodyEnd)
      (hwaited : Waited job body before f) (hparts : Parts limit job body f own turns)
      (hearly : InTime limit own.dropLast) (hends : BodyEnds limit job body own ending)
      (hrest : rest.length ≤ 1) :
      JobEnds limit job body (before ++ turns ++ rest) false (some ending)
  | refused {before : List (World × World)} {f : Future .job} {w w' : World} (n : Nat)
      (hwaited : Waited job body before f)
      (hturn : (Sim.poll n f).run w = (.value (.error .canceled), w'))
      (hrefused : Pool.Refused job w'.pool) :
      JobEnds limit job body (before ++ [(w, w')]) false none
  | takenAway {turns : List (World × World)} {f : Future .job}
      (h : JobStage limit job body turns f) : JobEnds limit job body turns true none

/-- What one more turn makes of the task of a job. -/
inductive JobTurned (limit : Option Duration) (job : JobId) (body : JobBody)
    (turns : List (World × World)) (w : World) : Future .job × World → Prop
  | goes {f : Future .job} {w' : World} (h : JobStage limit job body (turns ++ [(w, w')]) f) :
      JobTurned limit job body turns w (f, w')
  | ends {ending : Option Pool.BodyEnd} {w' : World}
      (h : JobEnds limit job body (turns ++ [(w, w')]) false ending)
      (htold : (w'.pool.job? job).isSome → Pool.Told job ending w'.pool) :
      JobTurned limit job body turns w (.value (Pool.resultOf ending), w')

theorem SameMoment.trans {w'' : World} (h : SameMoment w w') (h' : SameMoment w' w'') :
    SameMoment w w'' :=
  ⟨h'.clock.trans h.clock, h.untouched.trans h'.untouched⟩

/-! ### More turns -/

theorem Advances.of_done {o : Outcome a.Value} {turns : List (World × World)} {g : Future a}
    (h : Advances (.done o) turns g) : g = .done o := by
  generalize hf : Future.done o = f at h ⊢
  induction h with
  | refl => rfl
  | turn n hturn _ ih =>
      subst hf
      rw [Sim.poll_done] at hturn
      cases hturn
      exact ih rfl

/-- A computation that had not ended ends in one more turn. -/
theorem Advances.runs {f g : Future a} {own : List (World × World)} {o : Outcome a.Value}
    (h : Advances f own g) (hgoes : ∀ o, g ≠ .done o)
    (hturn : (Sim.poll n g).run w = (.done o, w')) : Runs f (own ++ [(w, w')]) o := by
  induction h with
  | refl f => exact .last n hturn
  | turn n' hturn' hrest ih =>
      refine .turn n' hturn' ?_ (ih hgoes hturn)
      rintro o rfl
      exact hgoes o hrest.of_done

theorem Waited.snoc {turns : List (World × World)} {f f' : Future .job}
    (h : Waited job body turns f) (hturn : (Sim.poll n f).run w = (f', w'))
    (hqueued : Queued job body f') (hgoes : ∀ o, f' ≠ .done o) :
    Waited job body (turns ++ [(w, w')]) f' :=
  ⟨h.advances.snoc hturn, hqueued, hgoes⟩

theorem Parts.snoc {own turns : List (World × World)} {f : Future .job}
    (h : Parts limit job body f own turns) {v' : World} (hafter : Untouched v' w') :
    Parts limit job body f (own ++ [(w, v')]) (turns ++ [(w, w')]) := by
  have hlast : List.Forall₂ Within [(w, v')] [(w, w')] := .cons ⟨⟨rfl, .refl w⟩, hafter⟩ .nil
  obtain ⟨⟨n, n', t, first, turn, hfirst, hturn, hcalls⟩, hwithin, hbegins⟩ := h
  refine ⟨⟨n, n', t, first, turn, ?_, ?_, hcalls⟩, List.rel_append hwithin hlast, ?_⟩
  · rw [List.head?_append, hfirst]
    rfl
  · rw [List.head?_append, hturn]
    rfl
  cases hwithin with
  | nil => cases hfirst
  | cons _ _ =>
      simp only [List.map_cons, List.tail_cons] at hbegins
      simp only [List.cons_append, List.map_cons, List.tail_cons, List.map_append, hbegins]

theorem InTime.snoc {own : List (World × World)} {first : World × World} (h : InTime limit own)
    (hfirst : (own ++ [(w, w')]).head? = some first)
    (hearly : ∀ d, limit = some d → w'.clock < first.1.clock + d.timerMillis) :
    InTime limit (own ++ [(w, w')]) := by
  intro d hd start hstart part hpart
  obtain rfl : first = start := Option.some.inj (hfirst.symm.trans hstart)
  rcases List.mem_append.mp hpart with hbefore | hlast
  · cases own with
    | nil => cases hbefore
    | cons part rest => exact h d hd first hfirst _ hbefore
  · rw [List.mem_singleton.mp hlast]
    exact hearly d hd

/-! ### A turn in which the pool is asked -/

/-- The task of a job has got an answer of the pool. -/
inductive Answered (limit : Option Duration) (job : JobId) (body : JobBody) (t : Ticket)
    (w : World) (answer : Pool × Pool.Admission) : Future .job × World → Prop
  | waits (v : World) (hanswer : answer.2 = .wait) (hpool : v.pool = { answer.1 with outbox := {} })
      (hmoment : SameMoment w v) (hallowance : v.allowance = w.allowance) :
      Answered limit job body t w answer (.wait (.permit job t body), v)
  | refused (v : World) (h : Pool.Refused job v.pool) :
      Answered limit job body t w answer (.value (.error .canceled), v)
  | calls (u : Ticket) (v : World) (things : Nat) (hthings : things ≤ 2)
      (hmoment : SameMoment w v) (hallowance : v.allowance = w.allowance.map (· - things)) :
      Answered limit job body t w answer
        (runningBody limit job w.clock u (.begin (.body job body)), v)

/-- What a turn makes of the task of a job whose body was not called yet. If the body is called,
the turn has at least so much left for it. -/
inductive AsksPool (limit : Option Duration) (job : JobId) (body : JobBody) (n : Nat) (w : World) :
    Future .job × World → Prop
  | waits {f : Future .job} (v : World) (h : Queued job body f) (hgoes : ∀ o, f ≠ .done o) :
      AsksPool limit job body n w (f, v)
  | refused (v : World) (h : Pool.Refused job v.pool) :
      AsksPool limit job body n w (.value (.error .canceled), v)
  | calls (n' : Nat) (u : Ticket) (v : World) (things : Nat) (hn : n ≤ n')
      (hthings : things ≤ 2) (hmoment : SameMoment w v)
      (hallowance : v.allowance = w.allowance.map (· - things)) :
      AsksPool limit job body n w
        ((Sim.poll n' (runningBody limit job w.clock u (.begin (.body job body)))).run v)

/-- What was asked before has used up neither time nor anything that the task may take. -/
theorem AsksPool.since {v : World} {asked : Future .job × World}
    (h : AsksPool limit job body n v asked) (hmoment : SameMoment w v)
    (hallowance : v.allowance = w.allowance) :
    AsksPool limit job body n w asked := by
  cases h with
  | waits v' h hgoes => exact .waits v' h hgoes
  | refused v' h => exact .refused v' h
  | calls n' u v' things hn hthings hmoment' hallowance' =>
      rw [hmoment.clock]
      exact .calls n' u v' things hn hthings (hmoment.trans hmoment') (hallowance ▸ hallowance')

namespace Sim

/-- A body that is called starts at once, under the deadline of the pool. -/
theorem runBody_run (job : JobId) (body : JobBody) (w : World) :
    ∃ u v, (runBody job body).run w =
        (runningBody w.pool.deadline job w.clock u (.begin (.body job body)), v) ∧
      SameMoment w v ∧ v.allowance = w.allowance := by
  have hget : (get : Sim World).run w = (w, w) := rfl
  rw [runBody, run_bind, hget]
  cases w.pool.deadline with
  | none => exact ⟨default, w, rfl, ⟨rfl, .refl w⟩, rfl⟩
  | some d =>
      have hticket : SameMoment w (ticket.run w).2 := ⟨rfl, (leaves_ticket w).toUntouched⟩
      exact ⟨(ticket.run w).1, (ticket.run w).2, rfl, hticket, rfl⟩

theorem answered_asked (act : Pool → Pool × Pool.Admission) (t : Ticket)
    (hlimit : (act w.pool).1.deadline = limit)
    (hrefused : (act w.pool).2 = .canceled →
      Pool.Refused job { (act w.pool).1 with outbox := {} }) :
    Answered limit job body t w (act w.pool)
      ((onPool act >>= admitted job t body).run w) := by
  have hmoment : SameMoment w ((onPool act).run w).2 :=
    ⟨clock_onPool act w, (leaves_onPool act w).toUntouched⟩
  have hallowance := allowance_onPool act w
  have hpool := pool_onPool act w
  rw [run_bind, show ((onPool act).run w).1 = (act w.pool).2 from rfl]
  generalize ((onPool act).run w).2 = v at hmoment hallowance hpool ⊢
  cases hanswer : (act w.pool).2 with
  | wait => exact .waits v hanswer hpool hmoment hallowance
  | canceled => exact .refused v (hpool ▸ hrefused hanswer)
  | run =>
      let things := if v.pool.limit.isSome then 2 else 1
      have hthings : things ≤ 2 := by
        dsimp only [things]
        split <;> omega
      have hdeadline : ((spend things).run v).2.pool.deadline = limit := by
        change v.pool.deadline = limit
        rw [hpool]
        exact hlimit
      have hspent : SameMoment w ((spend things).run v).2 :=
        hmoment.trans ⟨rfl, (leaves_spend things v).toUntouched⟩
      obtain ⟨u, v', hrun, hcalled, hallowance'⟩ := runBody_run job body ((spend things).run v).2
      have hadmitted : (admitted job t body .run).run v =
          (runBody job body).run ((spend things).run v).2 := by
        rw [admitted]
        rfl
      rw [hadmitted, hrun, hdeadline, hspent.clock]
      refine .calls u v' things hthings (hspent.trans hcalled) (hallowance'.trans ?_)
      rw [← hallowance]
      rfl

/-- A job that waits for a permit asks once more. -/
theorem asks_permit {rest : Nat} (hrest : rest ≤ n) (t : Ticket)
    (hlimit : w.pool.deadline = limit) (hcanceled : w.pool.WellCanceled)
    (hphase : w.pool.isIn job (·.isWaiting) = true) :
    AsksPool limit job body rest w ((poll (n + 1) (.wait (.permit job t body))).run w) := by
  have hnone := Pool.result?_of_isIn hphase fun _ => rfl
  have hanswered : Answered limit job body t w (w.pool.retry job t)
      ((onPool (·.retry job t) >>= admitted job t body).run w) :=
    answered_asked (·.retry job t) t ((Pool.deadline_retry _ job t).trans hlimit) fun hanswer =>
      .retry w.pool t (Pool.isClosed_of_retry hcanceled hnone hanswer) hanswer
  have hcheck : (check (.permit job t body)).run w =
      (Polled.of ((onPool (·.retry job t) >>= admitted job t body).run w).1,
        ((onPool (·.retry job t) >>= admitted job t body).run w).2) := rfl
  rw [poll_wait, hcheck]
  generalize (onPool (·.retry job t) >>= admitted job t body).run w = answered at hanswered ⊢
  cases hanswered with
  | waits v _ _ _ _ => exact .waits v (.waits t) fun o h => (by cases h)
  | refused v h =>
      change AsksPool limit job body rest w
        ((poll n (.value (.error .canceled) : Future .job)).run v)
      rw [poll_value]
      exact .refused v h
  | calls u v things hthings hmoment hallowance =>
      exact .calls n u v things hrest hthings hmoment hallowance

/-- A job that has just begun asks for the first time, and once more if it has to wait. -/
theorem asks_task (n : Nat) (hlimit : w.pool.deadline = limit)
    (hcanceled : w.pool.WellCanceled) (hphase : w.pool.isIn job (·.isSubmitted) = true) :
    AsksPool limit job body n w ((poll (n + 2) (.begin (.task job body))).run w) := by
  let t := (ticket.run w).1
  let u := (ticket.run w).2
  have hticket : SameMoment w u := ⟨rfl, (leaves_ticket w).toUntouched⟩
  have hnone := Pool.result?_of_isIn hphase fun _ => rfl
  have hanswered : Answered limit job body t u (u.pool.begin job t)
      ((onPool (·.begin job t) >>= admitted job t body).run u) :=
    answered_asked (·.begin job t) t ((Pool.deadline_begin _ job t).trans hlimit) fun hanswer =>
      .begin w.pool t (Pool.isClosed_of_begin hcanceled hnone hanswer) hanswer
  have hbegin : (Sim.begin (.task job body)).run w =
      (onPool (·.begin job t) >>= admitted job t body).run u := by
    rw [Sim.begin]
    rfl
  rw [poll_begin, hbegin]
  generalize (onPool (·.begin job t) >>= admitted job t body).run u = answered at hanswered ⊢
  cases hanswered with
  | refused v h =>
      dsimp only
      rw [poll_value]
      exact .refused v h
  | calls u' v things hthings hmoment hallowance =>
      exact .calls (n + 1) u' v things (Nat.le_succ n) hthings (hticket.trans hmoment) hallowance
  | waits v hanswer hpool hmoment hallowance =>
      have hpossible : Pool.Move.isPossible w.pool (.begin job t) = true := hphase
      have hstep : v.pool = w.pool.step (.begin job t) := by
        rw [hpool, Pool.step, if_pos hpossible]
        rfl
      have hwaiting : v.pool.isIn job (·.isWaiting) = true := by
        have hplaces : (w.pool.begin job t).2.Places (w.pool.begin job t).1 job :=
          Pool.places_begin hphase t
        rw [show (w.pool.begin job t).2 = .wait from hanswer] at hplaces
        rw [hpool]
        exact hplaces
      have hlimit' : v.pool.deadline = limit := by
        rw [hstep, Pool.deadline_step]
        exact hlimit
      exact (asks_permit (Nat.le_refl n) t hlimit' (hstep ▸ hcanceled.step _) hwaiting).since
        (hticket.trans hmoment) hallowance

end Sim

/-! ### A turn in which the body runs -/

/-- What the pool is told of a body that has come to this in its part of a turn: what it is, or
that its time is over. -/
inductive Settles (limit : Option Duration) (start : Nat) :
    Future .job × World → Pool.BodyEnd → Prop
  | returned (result : JobResult) (v : World) :
      Settles limit start (.value result, v) (.returned result)
  | panicked (payload : Payload) (v : World) :
      Settles limit start (.panic payload, v) (.panicked payload)
  | overdue (d : Duration) (code : Future .job) (v : World) (hlimit : limit = some d)
      (hgoes : ∀ o, code ≠ .done o) (hdue : start + d.timerMillis ≤ v.clock) :
      Settles limit start (code, v) (.overdue d)

namespace Sim

/-- What is told of a body whose guard has ended. -/
theorem settles_given {start : Nat} {t : Ticket} {code : Future .job} {v : World}
    (h : (∃ o, code = .done o) ∨
      ∃ alarm, alarmSince limit start t = some alarm ∧ alarm.deadline ≤ v.clock) :
    Settles limit start (code, v) (endingOf limit code.given) := by
  by_cases hdone : ∃ o, code = .done o
  · obtain ⟨o, rfl⟩ := hdone
    cases o with
    | returned result => exact .returned result v
    | panicked payload => exact .panicked payload v
  · have hgoes (o : Outcome JobResult) (ho : code = .done o) : False := hdone ⟨o, ho⟩
    obtain ⟨alarm, halarm, hdue⟩ := h.resolve_left hdone
    obtain ⟨d, rfl, rfl⟩ := Option.map_eq_some_iff.mp halarm
    have hgiven : code.given = .returned none := by
      cases code with
      | done o => exact (hgoes o rfl).elim
      | _ => rfl
    rw [hgiven]
    exact .overdue d code v rfl hgoes hdue

/-- The pool is told at once, or in the next turn if the task has taken all that it may. -/
theorem poll_telling (n : Nat) (t : Ticket) (ending : Pool.BodyEnd) (w : World) :
    (∃ v, (poll (n + 3) (telling job ending t)).run w = (.value ending.result, v) ∧
      ((v.pool.job? job).isSome → Pool.Told job (some ending) v.pool)) ∨
    (w.allowance = some 0 ∧ ((poll (n + 3) (telling job ending t)).run w).1 =
      telling job ending t) := by
  by_cases hheld : w.allowance = some 0
  · refine .inr ⟨hheld, ?_⟩
    rw [telling, poll_bind]
    rcases poll_taking_run (n + 1) 1 t w with ⟨henough, -⟩ | ⟨-, hwaits⟩
    · simp [hheld] at henough
    · rw [hwaits, hheld]
      rfl
  · refine .inl ⟨_, poll_finishing_run n t ending hheld, fun hknown => ?_⟩
    have hpool := pool_onPool (fun p => (p.finish job ending, ())) ((spend 1).run w).2
    rw [updatePool, hpool] at hknown ⊢
    obtain ⟨hresult, hcanceled⟩ := Pool.told_finish hknown
    exact ⟨hresult, hcanceled⟩

theorem poll_bind_done {b : Shape} {inner : Future a} (frame : Frame a b) {o : Outcome a.Value}
    (h : (poll n inner).run w = (.done o, w')) : (poll (n + 1) (.bind inner frame)).run w =
      (poll n ((resume frame o).run w').1).run ((resume frame o).run w').2 := by
  rw [poll_bind, h]

theorem poll_bind_goes {b : Shape} {inner inner' : Future a} (frame : Frame a b)
    (h : (poll n inner).run w = (inner', w')) (hgoes : ∀ o, inner' ≠ .done o) :
    (poll (n + 1) (.bind inner frame)).run w = (.bind inner' frame, w') := by
  rw [poll_bind, h]
  cases inner' with
  | done o => exact absurd rfl (hgoes o)
  | _ => rfl

/-- What a guard does after its code leaves alone what the tasks run. -/
theorem untouched_guarded (n : Nat) (alarm : Option Alarm) (code : Future a) (w : World) :
    Untouched ((poll n code).run w).2 ((poll (n + 1) (code.guarded alarm)).run w).2 := by
  cases alarm with
  | none =>
      rw [Future.guarded, Future.map, poll_bind]
      generalize (poll n code).run w = polled
      obtain ⟨code', v⟩ := polled
      cases code' with
      | done ended =>
          dsimp only
          rw [resume_some, poll_done]
          exact .refl v
      | _ => exact .refl v
  | some alarm =>
      have hspent : (isSpent.run w).2 = w := rfl
      rw [Future.guarded, poll]
      simp only [run_bind, hspent]
      generalize (isSpent.run w).1 = spent
      generalize (poll n code).run w = polled
      obtain ⟨code', v⟩ := polled
      have hrings (code' : Future a) : Leaves (rings alarm (!spent) >>= fun isOver =>
          if isOver then drop code' >>= fun _ => unset alarm >>= fun _ => pure (Future.value none)
          else pure (.within alarm code') : Sim (Future (.maybe a))) := by
        refine .bind (leaves_rings alarm _) fun isOver => ?_
        cases isOver with
        | false => exact .pure _
        | true =>
            exact .bind (leaves_drop code') fun _ => .bind (leaves_unset alarm) fun _ => .pure _
      cases code' with
      | done ended =>
          cases ended with
          | returned result => exact (leaves_unset alarm v).toUntouched
          | panicked payload => exact (leaves_unset alarm v).toUntouched
      | _ => exact (hrings _ v).toUntouched

/-- In its turn a body goes on, or it has ended or is overdue, and the pool is told. -/
theorem poll_runningBody (n start : Nat) (t : Ticket) (code : Future .job) {w : World}
    (hheld : w.allowance ≠ some 0) :
    (((poll (n + 4) (runningBody limit job start t code)).run w).1 =
        runningBody limit job start t ((poll (n + 2) code).run w).1 ∧
      (∀ o, ((poll (n + 2) code).run w).1 ≠ .done o) ∧
      (∀ d, limit = some d → ((poll (n + 2) code).run w).2.clock < start + d.timerMillis) ∧
      Untouched ((poll (n + 2) code).run w).2
        ((poll (n + 4) (runningBody limit job start t code)).run w).2) ∨
    ∃ ending u v, Settles limit start ((poll (n + 2) code).run w) ending ∧
      Untouched ((poll (n + 2) code).run w).2 v ∧
      (poll (n + 4) (runningBody limit job start t code)).run w =
        (poll (n + 3) (telling job ending u)).run v := by
  have hguard := untouched_guarded (n + 2) (alarmSince limit start t) code w
  rcases poll_guarded (n + 2) (alarmSince limit start t) code w with
    ⟨hdone, hends⟩ | ⟨hguarded, hgoes, hearly⟩
  · right
    obtain ⟨v, hended⟩ : ∃ v, (poll (n + 3) (code.guarded (alarmSince limit start t))).run w =
        (.done ((poll (n + 2) code).run w).1.given, v) := ⟨_, Prod.ext hdone rfl⟩
    rw [hended] at hguard
    have hpolled := poll_bind_done (.bodyEnd job limit) hended
    obtain ⟨u, hresume⟩ : ∃ u, (resume (.bodyEnd job limit)
        ((poll (n + 2) code).run w).1.given).run v = _ := resume_bodyEnd limit _ v
    refine ⟨_, u, (ticket.run v).2, settles_given hends,
      hguard.trans (leaves_ticket v).toUntouched, ?_⟩
    rw [runningBody, hpolled, hresume]
    rfl
  · left
    have hnot := ((poll (n + 2) code).run w).1.guarded_ne_done (alarmSince limit start t)
    have hpolled := poll_bind_goes (.bodyEnd job limit) (Prod.ext hguarded rfl) hnot
    rw [runningBody, hpolled]
    refine ⟨rfl, hgoes, fun d hd => hearly hheld ⟨t, start + d.timerMillis⟩ ?_, hguard⟩
    rw [alarmSince, hd]
    rfl

end Sim

/-- How a body has ended in the last part of its turns. -/
theorem Settles.bodyEnds {own : List (World × World)} {first : World × World}
    {code : Future .job} {ending : Pool.BodyEnd}
    (h : Settles limit first.1.clock ((Sim.poll n code).run w) ending)
    (hbody : Advances (.begin (.body job body)) own code) (hgoes : ∀ o, code ≠ .done o)
    (hfirst : (own ++ [(w, ((Sim.poll n code).run w).2)]).head? = some first) :
    BodyEnds limit job body (own ++ [(w, ((Sim.poll n code).run w).2)]) ending := by
  generalize hturn : (Sim.poll n code).run w = polled at h hfirst
  cases h with
  | returned result v => exact .returned result (hbody.runs hgoes hturn)
  | panicked payload v => exact .panicked payload (hbody.runs hgoes hturn)
  | overdue d code' v hlimit hgoes' hdue =>
      exact .overdue d code' first (w, v) hlimit (hbody.snoc hturn) hgoes' hfirst
        List.getLast?_concat hdue

/-- A turn of the task in which its body has a part. -/
theorem JobTurned.running {before turns own : List (World × World)} {f code : Future .job}
    {first v : World} (hwaited : Waited job body before f)
    (hbody : Advances (.begin (.body job body)) own code) (hgoes : ∀ o, code ≠ .done o)
    (hearly : InTime limit own) (hheld : v.allowance ≠ some 0)
    (hparts : ∀ v' w', Untouched v' w' →
      Parts limit job body f (own ++ [(v, v')]) (turns ++ [(w, w')]))
    (hfirst : ∀ v', (own ++ [(v, v')]).head?.map Prod.fst = some first) (t : Ticket) :
    JobTurned limit job body (before ++ turns) w
      ((Sim.poll (n + 4) (runningBody limit job first.clock t code)).run v) := by
  obtain ⟨part, hpart, rfl⟩ := Option.map_eq_some_iff.mp (hfirst ((Sim.poll (n + 2) code).run v).2)
  rcases Sim.poll_runningBody n part.1.clock t code hheld with
    ⟨hgoing, hgoes', hearly', hafter⟩ | ⟨ending, u, x, hsettles, hafter, htold⟩
  · generalize (Sim.poll (n + 4) (runningBody limit job part.1.clock t code)).run v = polled
      at hgoing hafter
    obtain ⟨f', w'⟩ := polled
    obtain rfl : f' = _ := hgoing
    refine .goes ?_
    rw [List.append_assoc]
    exact .running t hwaited (hparts _ w' hafter) (hbody.snoc rfl) hgoes'
      (hearly.snoc hpart hearly') hpart
  · have hends := hsettles.bodyEnds hbody hgoes hpart
    have hearly' : InTime limit (own ++ [(v, ((Sim.poll (n + 2) code).run v).2)]).dropLast := by
      rw [List.dropLast_concat]
      exact hearly
    have hafter := hafter.trans (Sim.records_poll (n + 3) (telling job ending u) x).toUntouched
    rw [htold]
    rcases Sim.poll_telling n u ending x with ⟨w', hrun, hresult⟩ | ⟨-, hput⟩
    · rw [hrun] at hafter ⊢
      have hjob : JobEnds limit job body (before ++ (turns ++ [(w, w')]) ++ []) false
          (some ending) := .ended ending hwaited (hparts _ w' hafter) hearly' hends (Nat.zero_le 1)
      rw [List.append_nil, ← List.append_assoc] at hjob
      exact .ends hjob hresult
    · generalize (Sim.poll (n + 3) (telling job ending u)).run x = polled at hput hafter
      obtain ⟨f', w'⟩ := polled
      obtain rfl : f' = _ := hput
      refine .goes ?_
      rw [List.append_assoc]
      exact .telling ending u hwaited (hparts _ w' hafter) hearly' hends

/-- The task of a job has not come to its end. -/
theorem JobStage.ne_done {turns : List (World × World)} {f : Future .job}
    (h : JobStage limit job body turns f) (o : Outcome JobResult) : f ≠ .done o := by
  cases h with
  | queued h => exact h.goes o
  | running => exact fun h => (by cases h)
  | telling => exact fun h => (by cases h)

/-- A turn of the task of a job, wherever it stands. -/
theorem JobStage.turn {turns : List (World × World)} {f : Future .job}
    (h : JobStage limit job body turns f) (hcourse : JobCourse w.pool job f)
    (hlimit : w.pool.deadline = limit) (hcanceled : w.pool.WellCanceled)
    (hheld : w.allowance = some Sim.turnAllowance) :
    JobTurned limit job body turns w ((Sim.poll Sim.pollFuel f).run w) := by
  obtain ⟨n, hn⟩ : ∃ n, Sim.pollFuel = n + 6 := ⟨9999994, rfl⟩
  have hheld' : w.allowance ≠ some 0 := by
    rw [hheld]
    decide
  rw [hn]
  cases h with
  | queued hwaited =>
      have hasks : AsksPool limit job body (n + 4) w ((Sim.poll (n + 6) f).run w) := by
        cases hwaited.queued with
        | canceled => exact absurd rfl (hwaited.goes _)
        | begin =>
            cases hcourse with
            | submitted _ hphase => exact Sim.asks_task (n + 4) hlimit hcanceled hphase
        | waits t =>
            cases hcourse with
            | waiting _ _ hphase =>
                exact Sim.asks_permit (Nat.le_succ (n + 4)) t hlimit hcanceled hphase
      generalize hturn : (Sim.poll (n + 6) f).run w = polled at hasks ⊢
      cases hasks with
      | waits v hqueued hgoes => exact .goes (.queued (hwaited.snoc hturn hqueued hgoes))
      | refused v hrefused =>
          exact .ends (.refused (n + 6) hwaited hturn hrefused) fun hknown =>
            .of_canceled (hrefused.result? hknown)
      | calls n' u v things hn' hthings hmoment hallowance =>
          obtain ⟨m, rfl⟩ := Nat.exists_eq_add_of_le' (Nat.le_trans (Nat.le_add_left 4 n) hn')
          have hspent : v.allowance ≠ some 0 := by
            rw [hallowance, hheld]
            simp only [Sim.turnAllowance, Option.map_some, ne_eq, Option.some.injEq]
            omega
          have hcall : JobTurned limit job body (turns ++ []) w
              ((Sim.poll (m + 4) (runningBody limit job v.clock u (.begin (.body job body)))).run
                v) := by
            refine .running hwaited (.refl _) (fun o h => by cases h) ?_ hspent ?_
              (fun w' => rfl) u
            · intro d hd first hfirst
              cases hfirst
            · intro v' w' hafter
              rw [← hmoment.clock] at hturn
              exact ⟨⟨n + 6, m + 4, u, (v, v'), (w, w'), rfl, rfl, hturn⟩,
                .cons ⟨hmoment, hafter⟩ .nil, rfl⟩
          rw [List.append_nil, hmoment.clock] at hcall
          exact hcall
  | @running before later _ _ code first t hwaited hparts hbody hgoes hearly hfirst =>
      refine .running hwaited hbody hgoes hearly hheld' (fun v' w' => hparts.snoc) ?_ t
      intro w'
      rw [List.head?_append, hfirst]
      rfl
  | telling ending t hwaited hparts hearly hends =>
      rcases Sim.poll_telling (n + 3) t ending w with ⟨v, hrun, htold⟩ | ⟨hspent, -⟩
      · rw [hrun]
        exact .ends (.ended ending hwaited hparts hearly hends (Nat.le_refl 1)) htold
      · exact absurd hspent hheld'

end Simulation

end EventHub
