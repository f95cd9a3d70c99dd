import EventHub.Proofs.Panics.Registrations
import EventHub.Proofs.Stores.Shutdown

/-!
Jobs whose body breaks off. The task of a job runs its body under the guard of the pool's
deadline, in a frame that takes whatever becomes of it, and tells the pool before it ends.
What the pool has been told it keeps, and whoever waits for the job gets just that.
-/

namespace EventHub

namespace Pool

variable {p : Pool} {id : JobId} {result : JobResult}

theorem result?_eq_some_iff :
    p.result? id = some result ↔ ∃ j, p.job? id = some j ∧ j.phase = .ended result := by
  rw [result?]
  constructor
  · intro h
    split at h
    · rename_i hjob
      cases h
      exact ⟨_, hjob, rfl⟩
    · cases h
  · rintro ⟨⟨_, _, _⟩, hjob, rfl⟩
    rw [hjob]

/-- A job's result lasts. -/
theorem result?_step (h : p.result? id = some result) (m : Move) :
    (p.step m).result? id = some result := by
  obtain ⟨j, hj, hphase⟩ := result?_eq_some_iff.mp h
  have hnot (kind : JobPhase → Bool) (hkind : kind (.ended result) = false)
      (hin : p.isIn id kind = true) : False := by
    rw [isIn_of_job? hj, hphase, hkind] at hin
    cases hin
  rw [step]
  split
  · rename_i hpossible
    rcases (change_act p m hpossible).job?_cases id with hsame | ⟨hnone, -⟩ | ⟨-, hearly | hruns⟩
    · exact result?_eq_some_iff.mpr ⟨j, hsame.trans hj, hphase⟩
    · cases hnone.symm.trans hj
    · exact (hnot _ rfl hearly).elim
    · exact (hnot _ rfl hruns).elim
  · exact h

theorem result?_run (h : p.result? id = some result) (moves : List Move) :
    (p.run moves).result? id = some result := by
  induction moves using List.reverseRecOn with
  | nil => exact h
  | append_singleton moves m ih =>
      rw [run_concat]
      exact result?_step ih m

/-- However a body ends, its job is concluded by the result, and no job is forgotten. -/
theorem finish_eq_conclude (p : Pool) (id : JobId) (ending : BodyEnd) :
    ∃ q : Pool, q.jobs = p.jobs ∧ p.finish id ending = q.conclude id ending.result := by
  have hends (q : Pool) (hq : SameJobs p q) :
      ((({ q with live := q.live.filter (·.1 ≠ id) }.noteEnd id ending.result).returnPermit
        id).dropToken id).jobs = p.jobs := by
    have hremoved : { q with live := q.live.filter (·.1 ≠ id) }.jobs = p.jobs := hq.jobs
    exact (((SameJobs.noteEnd _ id _).trans (.returnPermit _ id)).trans
      (.dropToken _ id)).jobs.trans hremoved
  cases ending with
  | returned result => exact ⟨_, hends p (.refl p), rfl⟩
  | panicked payload => exact ⟨_, hends p (.refl p), rfl⟩
  | overdue deadline => exact ⟨_, hends _ (.cancelToken p id), rfl⟩

/-- A job that the pool knows has the result with which its body ended. -/
theorem result?_finish {ending : BodyEnd} (hknown : ((p.finish id ending).job? id).isSome) :
    (p.finish id ending).result? id = some ending.result := by
  obtain ⟨q, hjobs, hfinish⟩ := finish_eq_conclude p id ending
  rw [hfinish] at hknown ⊢
  apply result?_conclude hjobs
  have hfound : (q.conclude id ending.result).job? id =
      (q.setPhase id (.ended ending.result)).job? id := by
    simp only [job?, (q.conclude_jobs id ending.result).1]
  rw [hfound, job?_setPhase, Option.isSome_map, job?, hjobs] at hknown
  exact hknown

end Pool

namespace Simulation

variable {a : Shape} {job : JobId} {body : JobBody} {turns : List (World × World)}

/-! ### The task of a job -/

/-- A job whose body was not called yet. -/
inductive Queued (job : JobId) (body : JobBody) : Future .job → Prop where
  | begin : Queued job body (.begin (.task job body))
  | waits (t : Ticket) : Queued job body (.wait (.permit job t body))
  | canceled : Queued job body (.value (.error .canceled))

/-- The body is about to be called. -/
inductive CallsBody (job : JobId) (body : JobBody) : Future .job → Prop where
  | given (alarm : Option Alarm) (deadline : Option Duration) : CallsBody job body
      (.bind ((Future.begin (.body job body)).guarded alarm) (.bodyEnd job deadline))

/-- What the guard of a body tells the pool. -/
def endingOf (deadline : Option Duration) : Outcome (Option JobResult) → Pool.BodyEnd
  | .returned (some result) => .returned result
  | .returned none => .overdue (deadline.getD .zero)
  | .panicked payload => .panicked payload

namespace Sim

theorem callsBody_runBody (w : World) : CallsBody job body ((runBody job body).run w).1 := by
  have hget : (get : Sim World).run w = (w, w) := rfl
  simp only [runBody, run_bind, hget]
  cases w.pool.deadline with
  | none => exact .given none none
  | some d => exact .given (some _) (some d)

theorem queued_admitted (t : Ticket) (admission : Pool.Admission) (w : World) :
    Queued job body ((admitted job t body admission).run w).1 ∨
      CallsBody job body ((admitted job t body admission).run w).1 := by
  cases admission with
  | wait => exact Or.inl (.waits t)
  | canceled => exact Or.inl .canceled
  | run =>
      right
      rw [admitted]
      exact callsBody_runBody _

/-- Until the body is called, only the pool is asked whether it may run. -/
theorem poll_queued (n : Nat) {f : Future .job} (h : Queued job body f) (w : World) :
    Queued job body ((poll n f).run w).1 ∨
      ∃ n' f' w', CallsBody job body f' ∧ (poll n f).run w = (poll n' f').run w' := by
  induction n generalizing f w with
  | zero => exact Or.inl h
  | succ n ih =>
      cases h with
      | canceled =>
          rw [poll_value]
          exact Or.inl .canceled
      | begin =>
          have hbegun : Queued job body ((Sim.begin (.task job body)).run w).1 ∨
              CallsBody job body ((Sim.begin (.task job body)).run w).1 := by
            rw [Sim.begin]
            exact queued_admitted _ _ _
          rw [poll_begin]
          rcases hbegun with hqueued | hcalls
          · exact ih hqueued _
          · exact Or.inr ⟨n, _, _, hcalls, rfl⟩
      | waits t =>
          have hchecked : ∃ g w', (check (.permit job t body)).run w = (.of g, w') ∧
              (Queued job body g ∨ CallsBody job body g) := by
            rw [check]
            exact ⟨_, _, rfl, queued_admitted t _ _⟩
          obtain ⟨g, w', hchecked, hgoes⟩ := hchecked
          rw [poll_wait, hchecked]
          rcases hgoes with hqueued | hcalls
          · cases hqueued with
            | begin => exact ih .begin w'
            | waits u => exact Or.inl (.waits u)
            | canceled => exact ih .canceled w'
          · cases hcalls with
            | given alarm deadline => exact Or.inr ⟨n, _, w', .given alarm deadline, rfl⟩

/-- Taking things ends, if it ends, with nothing to tell. -/
theorem poll_taking_unit (t : Ticket) (n : Nat) (f : Future .unit) (w : World)
    (h : f = .value () ∨ ∃ things, f = .wait (.taking things t)) :
    ((poll n f).run w).1 = .value () ∨
      ∃ things, ((poll n f).run w).1 = .wait (.taking things t) := by
  rcases h with rfl | ⟨things, rfl⟩
  · rw [poll_value]
    exact Or.inl rfl
  · exact (poll_taking n things t w).2

theorem begin_finishJob (ending : Pool.BodyEnd) (w : World) :
    (begin (.finishJob job ending)).run w =
      (.value ending.result, ((updatePool (·.finish job ending)).run w).2) := by
  rw [begin]
  rfl

theorem resume_bodyEnd (deadline : Option Duration) (ended : Outcome (Option JobResult))
    (w : World) : ∃ t, (resume (.bodyEnd job deadline) ended).run w =
      (.bind (.wait (.taking 1 t)) (.andThen (.finishJob job (endingOf deadline ended))),
        (ticket.run w).2) := by
  cases ended with
  | returned v => cases v <;> exact ⟨_, rfl⟩
  | panicked payload => exact ⟨_, rfl⟩

/-- As soon as it may take one thing, the task tells the pool and ends. -/
theorem poll_finishing_run (n : Nat) (t : Ticket) (ending : Pool.BodyEnd) {w : World}
    (hheld : w.allowance ≠ some 0) :
    (poll (n + 3) (.bind (.wait (.taking 1 t)) (.andThen (.finishJob job ending)))).run w =
      (.value ending.result,
        ((updatePool (·.finish job ending)).run ((spend 1).run w).2).2) := by
  have henough : 1 ≤ w.allowance.getD 1 := by
    cases hallowance : w.allowance with
    | none => exact Nat.le_refl 1
    | some k =>
        rw [hallowance] at hheld
        have hk : k ≠ 0 := fun h => hheld (congrArg some h)
        exact Nat.one_le_iff_ne_zero.mpr hk
  have htaken : (poll (n + 2) (.wait (.taking 1 t))).run w = (.value (), ((spend 1).run w).2) := by
    rcases poll_taking_run (n + 1) 1 t w with ⟨-, htaken⟩ | ⟨hless, -⟩
    · exact htaken
    · exact absurd henough (Nat.not_le.mpr hless)
  rw [poll_bind, htaken]
  simp only [Future.value]
  rw [resume_andThen, poll_begin, begin_finishJob]
  exact poll_value (n + 1) _ _

theorem poll_finishing (n : Nat) (t : Ticket) (ending : Pool.BodyEnd) {w : World}
    (hheld : w.allowance ≠ some 0) :
    ((poll (n + 3) (.bind (.wait (.taking 1 t)) (.andThen (.finishJob job ending)))).run w).1 =
      .value ending.result :=
  congrArg Prod.fst (poll_finishing_run n t ending hheld)

end Sim

/-- The task of a job ends because the job is cancelled, or it comes to call the body, and
its last turns are those of what is left then. -/
theorem runs_task {o : Outcome JobResult} (h : Runs (.begin (.task job body)) turns o) :
    o = .returned (.error .canceled) ∨ ∃ alarm deadline rest,
      Runs (.bind ((Future.begin (.body job body)).guarded alarm) (.bodyEnd job deadline))
        rest o ∧ rest.map Prod.snd <:+ turns.map Prod.snd := by
  rcases h.reaches (Queued job body) (CallsBody job body)
    (fun n _ w hf => Sim.poll_queued n hf w) .begin with hdone | ⟨f, rest, hf, hruns, hlast⟩
  · cases hdone
    exact Or.inl rfl
  · cases hf with
    | given alarm deadline => exact Or.inr ⟨alarm, deadline, rest, hruns, hlast⟩

/-- The task of a job comes to a result, whatever becomes of the body, and the pool has
been told of it by the end of the last turn. -/
theorem Runs.of_bodyEnd {code : Future (.maybe .job)} {deadline : Option Duration}
    {o : Outcome JobResult} (h : Runs (.bind code (.bodyEnd job deadline)) turns o) :
    ∃ own ended, Runs code own ended ∧ Opens own turns ∧
      o = .returned (endingOf deadline ended).result ∧
      ∃ last, turns.getLast? = some last ∧ ((last.2.pool.job? job).isSome →
        last.2.pool.result? job = some (endingOf deadline ended).result) := by
  obtain ⟨own, ended, v, w', rest, hown, hopens, htaking, hlast⟩ := h.of_bind
  obtain ⟨t, hresume⟩ : ∃ t, (Sim.resume (.bodyEnd job deadline) ended).run v = _ :=
    Sim.resume_bodyEnd deadline ended v
  rw [hresume] at htaking
  obtain ⟨_, taken, u, u', rest', htaken, _, hfinish, hlast'⟩ := htaking.of_bind
  have hdone := htaken.keeps (fun n f w => Sim.poll_taking_unit t n f w) (Or.inr ⟨1, rfl⟩)
  obtain rfl : taken = .returned () := by simpa [Future.value] using hdone
  rw [Sim.resume_andThen] at hfinish
  obtain ⟨before, x, x', rest'', hturns, hends⟩ := hfinish.of_begin
  rw [Sim.begin_finishJob] at hends
  obtain ⟨rfl, y, hy⟩ := hends.of_done
  -- The turn in which the pool is told is the last one.
  obtain ⟨⟨hx, hx'⟩, hnil⟩ : (_ = y ∧ x' = y) ∧ rest'' = [] := by simpa using hy
  have htold : x'.pool = { x.pool.finish job (endingOf deadline ended) with outbox := {} } := by
    rw [hx', ← hx]
    exact Sim.pool_onPool (fun q => (q.finish job (endingOf deadline ended), ())) x
  have hends : [x'] <:+ turns.map Prod.snd := by
    refine List.IsSuffix.trans ?_ (hlast'.trans hlast)
    have hmap := congrArg (List.map Prod.snd) hturns
    rw [List.map_cons] at hmap
    rw [hmap, hnil, List.map_append]
    exact List.suffix_append _ _
  obtain ⟨before', hbefore'⟩ := hends
  have hgetLast : turns.getLast?.map Prod.snd = some x' := by
    rw [← List.getLast?_map, ← hbefore', List.getLast?_append, List.getLast?_singleton]
    rfl
  obtain ⟨last, hturn, hworld⟩ := Option.map_eq_some_iff.mp hgetLast
  refine ⟨own, ended, hown, hopens, rfl, last, hturn, ?_⟩
  rw [hworld, htold]
  exact Pool.result?_finish

/-! ### Waiting for a result -/

/-- A wait for something that is there from some time on, and is taken then. -/
def Awaits (wait : Wait a) (ready : World → Option a.Value) : Prop :=
  ∃ enter leave, Sim.check wait =
    Sim.take wait (get >>= fun w => Sim.waitUntil wait (ready w) enter leave)

theorem awaits_jobResult (job : JobId) (t : Ticket) :
    Awaits (.jobResult job t) fun w => w.pool.result? job := by
  rw [Awaits, Sim.check]
  exact ⟨_, _, rfl⟩

theorem awaits_blocking (task : Nat) (t : Ticket) :
    Awaits (.blocking task t) fun w => (w.blockingDone.lookup task).map Sim.blockingResult := by
  rw [Awaits, Sim.check]
  exact ⟨_, _, rfl⟩

section

variable {wait : Wait a} {ready : World → Option a.Value} {w : World}

namespace Sim

theorem waitUntil_fst (wait : Wait a) (found : Option a.Value) (enter leave : Sim Unit)
    (w : World) :
    ((waitUntil wait found enter leave).run w).1 =
      match found with
      | some v => .next (.value v)
      | none => .pending wait := by
  cases found <;> rfl

/-- A look finds what is there, or is put off. -/
theorem check_awaits (h : Awaits wait ready) (w : World) :
    ((check wait).run w).1 = .pending wait ∨
      ∃ v, ready w = some v ∧ ((check wait).run w).1 = .next (.value v) := by
  obtain ⟨enter, leave, hcheck⟩ := h
  have hlook := waitUntil_fst wait (ready w) enter leave w
  rw [hcheck]
  rcases take_run wait (get >>= fun w => waitUntil wait (ready w) enter leave) w with
    ⟨hwait, -⟩ | ⟨hlooked, -⟩
  · exact Or.inl hwait
  · have hfst := hlooked.trans hlook
    cases hready : ready w with
    | none =>
        rw [hready] at hfst
        exact Or.inl hfst
    | some v =>
        rw [hready] at hfst
        exact Or.inr ⟨v, rfl, hfst⟩

/-- A task that may still take something takes what is there. -/
theorem poll_awaits (h : Awaits wait ready) (n : Nat) {v : a.Value} (hready : ready w = some v)
    (hheld : w.allowance ≠ some 0) : ((poll (n + 1) (.wait wait)).run w).1 = .value v := by
  obtain ⟨enter, leave, hcheck⟩ := h
  have hlook := waitUntil_fst wait (ready w) enter leave w
  have hchecked : ((check wait).run w).1 = .next (.value v) := by
    rw [hcheck, take_fst hheld]
    exact hlook.trans (by rw [hready])
  rw [poll_wait]
  generalize (check wait).run w = checked at hchecked
  obtain ⟨p, w'⟩ := checked
  obtain rfl : p = _ := hchecked
  exact congrArg Prod.fst (poll_value n v w')

end Sim

/-- Whoever waits gets what was there when one of the turns began. -/
theorem Runs.of_awaits {o : Outcome a.Value} (h : Runs (.wait wait) turns o)
    (hawaits : Awaits wait ready) :
    ∃ turn ∈ turns, ∃ v, ready turn.1 = some v ∧ o = .returned v := by
  have hpending (other : Wait a) (w : World) (next : Wait a) (hother : other = wait)
      (hnext : ((Sim.check other).run w).1 = .pending next) : next = wait := by
    subst hother
    rcases Sim.check_awaits hawaits w with hwait | ⟨v, -, hvalue⟩
    · cases hnext.symm.trans hwait
      rfl
    · cases hnext.symm.trans hvalue
  obtain ⟨last, before, w, w', rest, f, rfl, rfl, hnext, hruns⟩ := h.of_wait hpending rfl
  rcases Sim.check_awaits hawaits w with hwait | ⟨v, hready, hvalue⟩
  · cases hnext.symm.trans hwait
  · cases hnext.symm.trans hvalue
    obtain ⟨rfl, -⟩ := hruns.of_done
    exact ⟨(w, w'), by simp, v, hready, rfl⟩

end

end Simulation

end EventHub
