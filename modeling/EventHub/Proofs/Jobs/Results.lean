import EventHub.Proofs.Jobs.Origins
import EventHub.Proofs.Jobs.Work

/-!
Every job has one result. Whatever else goes on, it is what the code that was submitted has come
to, in whichever way it was submitted, unless the time of the job was over, or it was cancelled
before. Whoever waits for the job gets this result. The tokens are cancelled downwards only: that of
a job by its own deadline, and those of all jobs by the closing of the pool.
-/

namespace EventHub

open EventHub.Script EventHub.Simulation

namespace Pool

variable {p q : Pool} {id : JobId} {result : JobResult}

/-- One of the pools has become the other. -/
def Akin (p q : Pool) : Prop := (∃ moves, q = p.run moves) ∨ ∃ moves, p = q.run moves

/-- A job has not got two results in the course of time. -/
theorem Akin.result?_inj (h : Akin p q) (hresult : p.result? id = some result)
    {other : JobResult} (hother : q.result? id = some other) : other = result := by
  rcases h with ⟨moves, rfl⟩ | ⟨moves, rfl⟩
  · exact Option.some.inj (hother.symm.trans (result?_run hresult moves))
  · exact Option.some.inj ((result?_run hother moves).symm.trans hresult)

/-- What cancels tokens. -/
structure CancelsDownwards (p : Pool) : Prop where
  /-- The token of a job is cancelled by the closing of the pool, or by the deadline of the job. -/
  reason : ∀ id ∈ p.canceled, p.isClosed = true ∨
    ∃ deadline, p.result? id = some (.error (.timeout deadline))
  lasts : ∀ id ∈ p.canceled, ∀ moves, id ∈ (p.run moves).canceled
  /-- A deadline cancels the token of its own job. -/
  deadline : ∀ id deadline other, other ∈ (p.step (.finish id (.overdue deadline))).canceled ↔
    other ∈ p.canceled ∨ (p.isIn id (·.isRunning) = true ∧ other = id)
  /-- That does not close the pool, and no other move but one does. -/
  closes : ∀ m, (p.step m).isClosed = true ↔ p.isClosed = true ∨ m = .close
  /-- In a closed pool the token of a job is cancelled that is under way. -/
  closed : p.isClosed = true → ∀ id, p.isUnderway id = true → id ∈ p.canceled
  /-- A job that was not begun before gets a token that is cancelled. -/
  late : p.isClosed = true → ∀ id t, p.isIn id (·.isSubmitted) = true →
    id ∈ (p.step (.begin id t)).canceled
  /-- When the job is over, its token is still cancelled for those that refer to it. -/
  referred : ∀ id, p.isUnderway id = true → ∀ moves, p.Referenced id moves →
    (p.run moves).isClosed = true → id ∈ (p.run moves).canceled

theorem cancelsDownwards (config : Config) (moves : List Move) :
    ((Pool.new config).run moves).CancelsDownwards := by
  have hcovered : ((Pool.new config).run moves).AllCovered := (allCovered_new config).run moves
  have hclosing {q : Pool} {id : JobId} (h : q.Covers id) (hclosed : q.isClosed = true) :
      id ∈ q.canceled :=
    h.resolve_right fun ⟨hopen, _⟩ => by cases hopen.symm.trans hclosed
  generalize hp : (Pool.new config).run moves = p at hcovered
  constructor
  case reason => exact hp ▸ WellCanceled.run config moves
  case lasts => exact fun id hid => canceled_run hid
  case deadline => exact fun id deadline other => mem_canceled_step p _ other
  case closes => exact isClosed_step_iff p
  case closed => exact fun hclosed id hunderway => hclosing (hcovered id hunderway) hclosed
  case late =>
    intro hclosed id t hphase
    exact (mem_canceled_step p (.begin id t) id).mpr (Or.inr ⟨hphase, hclosed, rfl⟩)
  case referred =>
    exact fun id hunderway later hheld => hclosing ((hcovered id hunderway).run hheld)

end Pool

namespace Simulation

/-- A submission makes a job known, and adds a task that is to call its body. -/
theorem submit_adds (name : String) (body : JobBody) (w : World) :
    (((Sim.submit name body).run w).2.pool.job? ((Sim.submit name body).run w).1).isSome = true ∧
      ∃ (i : Nat) (t : Task), ((Sim.submit name body).run w).2.tasks[i]? = some t ∧
        t.running = .job ((Sim.submit name body).run w).1
          (.begin (.task ((Sim.submit name body).run w).1 body)) := by
  constructor
  · have hjobs : ((Sim.submit name body).run w).2.pool.jobs =
        w.pool.jobs ++ [{ id := ((Sim.submit name body).run w).1, name }] :=
      congrArg Pool.jobs (Sim.pool_onPool (·.submit name) w)
    rw [Pool.job?, hjobs, List.find?_append, Option.isSome_or, List.find?_cons_of_pos (by simp)]
    exact Bool.or_true _
  · exact ⟨_, _, Array.getElem?_push_size, rfl⟩

end Simulation

namespace Scenario

variable {s : Scenario} {i : Nat} {job : JobId} {body : JobBody} {w w' : World}
  {turns own : List (World × World)} {cut : Bool} {limit : Option Duration}

/-- What the code has come to that was submitted for a job: an asynchronous body has run in these
parts of the turns of its task, and blocking work in a task of its own. -/
def CodeRan (job : JobId) (w w' : World) (own : List (World × World)) :
    JobBody → Outcome JobResult → Prop
  | .scripted spec, o => Runs (.begin (.body job (.scripted spec))) own o
  | .blocking work, o => WorkRan job work w w' o

/-- However the code was submitted, what it has come to makes the same result. -/
theorem LeadsIn.codeRan (hreached : Leads s.start w) (h : LeadsIn i w turns cut w')
    {f : Future .job} {later : List (World × World)} (hparts : Parts limit job body f own later)
    (hlater : later ⊆ turns) {ending : Pool.BodyEnd} (hends : BodyEnds limit job body own ending) :
    (∃ deadline, limit = some deadline ∧ ending = .overdue deadline) ∨
      ∃ o, CodeRan job w w' own body o ∧ ending.result = Sim.blockingResult o := by
  have hran {o : Outcome JobResult} (hbody : Runs (.begin (.body job body)) own o)
      (hresult : ending.result = Sim.blockingResult o) :
      ∃ o, CodeRan job w w' own body o ∧ ending.result = Sim.blockingResult o := by
    cases body with
    | scripted spec => exact ⟨o, hbody, hresult⟩
    | blocking work =>
        obtain ⟨ended, hworkRan, rfl⟩ := h.workRan hreached hparts hlater hbody
        exact ⟨ended, hworkRan, hresult⟩
  cases hends with
  | returned result hbody => exact .inr (hran hbody rfl)
  | panicked payload hbody => exact .inr (hran hbody rfl)
  | overdue d code first last hlimit _ _ _ _ _ => exact .inl ⟨d, hlimit, rfl⟩

/-- What has become of a job since its task was added and had not begun. -/
structure Lives (s : Scenario) (job : JobId) (body : JobBody) (i : Nat) (v : World)
    (turns : List (World × World)) (cut : Bool) (w : World) : Prop where
  reached : Leads s.start v
  added : ∃ t, v.tasks[i]? = some t ∧ t.running = .job job (.begin (.task job body))
  leads : LeadsIn i v turns cut w
  life : Life s.config.jobDeadline i job body turns cut w
  /-- Nobody but this task can call the body. -/
  alone : ∀ j t f, w.tasks[j]? = some t → t.running = .job job f → (∀ o, f ≠ .done o) → j = i
  /-- If the body ends in time, its end is that of the code that was submitted. -/
  alike : ∀ f own later ending, Parts s.config.jobDeadline job body f own later → later ⊆ turns →
    BodyEnds s.config.jobDeadline job body own ending →
    (∃ deadline, s.config.jobDeadline = some deadline ∧ ending = .overdue deadline) ∨
      ∃ o, CodeRan job v w own body o ∧ ending.result = Sim.blockingResult o

/-- A job that is known was submitted, and lives since then. -/
theorem Leads.lives (h : Leads s.start w) (hknown : (w.pool.job? job).isSome = true) :
    ∃ body i v turns cut, Lives s job body i v turns cut w := by
  obtain ⟨v, hreached, hleads, i, t, body, htask, hrunning⟩ := h.origin hknown
  obtain ⟨turns, cut, hleadsIn⟩ := hleads.leadsIn i
  have hlife := hleadsIn.life hreached htask hrunning
  refine ⟨body, i, v, turns, cut, hreached, ⟨t, htask, hrunning⟩, hleadsIn, hlife, ?_, ?_⟩
  · exact fun j t f => hlife.alone h.orderly.inStep
  · exact fun f own later ending hparts hlater => hleadsIn.codeRan hreached hparts hlater

/-- A job has this result for good, and that is what anybody gets who waits for the job at any
time. -/
structure Settled (job : JobId) (result : JobResult) (w : World) : Prop where
  lasts : ∀ w', Leads w w' → w'.pool.result? job = some result
  awaited : ∀ t turns o, Runs (.wait (.jobResult job t)) turns o →
    (∀ turn ∈ turns, w.pool.Akin turn.1.pool) → o = .returned result
  atOnce : ∀ n t v, (∃ moves, v.pool = w.pool.run moves) → v.allowance ≠ some 0 →
    ((Sim.poll (n + 1) (.wait (.jobResult job t))).run v).1 = .value result

theorem Leads.settled (h : Leads s.start w) {result : JobResult}
    (hresult : w.pool.result? job = some result) : Settled job result w := by
  constructor
  case lasts =>
    intro w' hleads
    obtain ⟨moves, hmoves⟩ := h.pool_onward hleads
    rw [hmoves]
    exact Pool.result?_run hresult moves
  case awaited =>
    intro t turns o hruns hakin
    obtain ⟨turn, hturn, v, hready, rfl⟩ := hruns.of_awaits (awaits_jobResult job t)
    rw [(hakin turn hturn).result?_inj hresult hready]
  case atOnce =>
    rintro n t v ⟨moves, hmoves⟩ hheld
    refine Sim.poll_awaits (awaits_jobResult job t) n ?_ hheld
    rw [hmoves]
    exact Pool.result?_run hresult moves

end Scenario

open Scenario in
/-- Every job has exactly one result. A submission adds a task for the body, and in every world that
follows the turns of this task tell what has become of the job: it waits for its permit, or its
body has its only run, or it is over and its result is, unchanged, what the code that was submitted
has come to, the text of its panic included; or that its time was over, counted from the call of the
body; or that it was cancelled, if the closed pool refused to call the body or the task was taken
away before. Work that blocks and code that does not are alike in this. The result lasts, and it is
what anybody gets who waits for the job. Its deadline cancels the token of a job, and no other one
and not the pool's; the closing of the pool cancels those of all jobs. -/
theorem jobs_have_one_result (s : Scenario) :
    (∀ name body w,
      (((Sim.submit name body).run w).2.pool.job? ((Sim.submit name body).run w).1).isSome = true ∧
      ∃ (i : Nat) (t : Simulation.Task), ((Sim.submit name body).run w).2.tasks[i]? = some t ∧
        t.running = .job ((Sim.submit name body).run w).1
          (.begin (.task ((Sim.submit name body).run w).1 body))) ∧
    (∀ w job, Leads s.start w → (w.pool.job? job).isSome = true →
      ∃ body i v turns cut, Lives s job body i v turns cut w) ∧
    (∀ w job result, Leads s.start w → w.pool.result? job = some result → Settled job result w) ∧
    ∀ w, Leads s.start w → w.pool.CancelsDownwards := by
  refine ⟨submit_adds, fun w job h => h.lives, fun w job result h => h.settled, fun w h => ?_⟩
  obtain ⟨moves, hmoves⟩ := h.pool
  rw [hmoves]
  exact Pool.cancelsDownwards s.config moves

namespace Scenario

/-- The time of a job is over after 20 milliseconds. -/
def hurried : Scenario := { config := { jobTimeout := .ofMillis 20 } }

/-- A job and the work of another one break off, and a third job waits until its time is over. -/
def submitsThree : Step :=
  .control (.all [
    .pool (.submit ⟨"import", [], .panic (.literal "boom") false⟩ none),
    .pool (.submitBlocking ⟨"render", [], .panic (.literal "boom") false⟩ none),
    .pool (.submit ⟨"index", [.control (.waitGate "ready")], .done⟩ none),
    .control (.sleep 50)])

/-- The world in which the three jobs are over. -/
def threeOver : World := ((runStep none submitsThree).run hurried.start).2

end Scenario

open Scenario in
theorem jobs_have_one_result_three :
    (∃ body i v turns cut, Lives hurried ⟨2⟩ body i v turns cut threeOver) ∧
    Settled ⟨1⟩ (.error (.panicked "boom")) threeOver ∧
    Settled ⟨2⟩ (.error (.panicked "boom")) threeOver ∧
    Settled ⟨3⟩ (.error (.timeout (.ofMillis 20))) threeOver ∧
    threeOver.pool.CancelsDownwards ∧ threeOver.pool.canceled = [⟨3⟩] := by
  obtain ⟨-, hlives, hsettled, hcancels⟩ := jobs_have_one_result hurried
  have hreached : Leads hurried.start threeOver := Leads.refl.runStep none submitsThree
  have hresults : ([⟨1⟩, ⟨2⟩, ⟨3⟩] : List JobId).map threeOver.pool.result? =
      [some (.error (.panicked "boom")), some (.error (.panicked "boom")),
        some (.error (.timeout (.ofMillis 20)))] := by
    decide +kernel
  simp only [List.map_cons, List.map_nil, List.cons.injEq, and_true] at hresults
  obtain ⟨hfirst, hsecond, hthird⟩ := hresults
  refine ⟨hlives threeOver ⟨2⟩ hreached (by decide +kernel), ?_, ?_, ?_, ?_, by decide +kernel⟩
  · exact hsettled threeOver ⟨1⟩ _ hreached hfirst
  · exact hsettled threeOver ⟨2⟩ _ hreached hsecond
  · exact hsettled threeOver ⟨3⟩ _ hreached hthird
  · exact hcancels threeOver hreached

end EventHub
