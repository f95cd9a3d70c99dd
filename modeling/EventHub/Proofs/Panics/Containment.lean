import EventHub.Proofs.Panics.Closures
import EventHub.Proofs.Panics.Dispatches

/-!
Panics of foreign code are contained, but for one. Wherever a listener, the body of a job,
blocking work or the computation of a setup breaks off, whoever asked for it gets a result in
which the panic is told, and everybody else goes on. One result is not changed by a panic: that
of a job which was over before its blocking work. What is not contained is the panic of a setup
that breaks off when it is called: a registration guards the computation that the setup becomes,
and not the call.
-/

namespace EventHub.Simulation

open EventHub.Script

/-! ### Each kind of code in its frame -/

/-- A registration survives the computation of its service's setup and tells in its result how that
broke off. It does not survive a setup that breaks off when it is called. -/
structure SetUpContained (broker : Nat) (service : Service) : Prop where
  /-- The broker is closed, or the service is called and the rest of the turns are those
  of its setup in the frame of the registration. -/
  called : ∀ turns o, Runs (.begin (.register broker service)) turns o →
    o = .returned (.error .closed) ∨ ∃ t handle rest,
      Runs (.bind (.begin (.setUp broker handle service))
        (.settingUp broker t handle service)) rest o ∧
      rest.map Prod.snd <:+ turns.map Prod.snd
  /-- There is a result whatever is guarded against, and after a panic it is this failure. -/
  ends : ∀ code t handle turns o, Runs (.bind code (.settingUp broker t handle service)) turns o →
    ∃ own ended, Runs code own ended ∧ Opens own turns ∧
      (Sim.unguarded? service ended = none → ∃ result, o = .returned result ∧
        ∀ payload, ended = .panicked payload →
          result = .error (.initializationFailed handle.name s!"panicked: {payload.message}")) ∧
      ∀ payload, Sim.unguarded? service ended = some payload → o = .panicked payload
  /-- So whoever registers a service is told of a result, -/
  returns : (∀ name payload, service ≠ .abrupt name payload) →
    ∀ turns o, Runs (.begin (.register broker service)) turns o → ∃ result, o = .returned result
  /-- and breaks off with a service that breaks off when it is called. -/
  escapes : ∀ name payload, service = .abrupt name payload →
    ∀ turns o, Runs (.begin (.register broker service)) turns o →
      o = .returned (.error .closed) ∨ o = .panicked payload
  /-- The turn of the panic goes on, and the slot is given back. -/
  atOnce : ∀ n code t handle payload w v, (Sim.poll n code).run w = (.panic payload, v) →
    Sim.unguarded? service (.panicked payload) = none →
    ∃ u, (Sim.poll (n + 1) (.bind code (.settingUp broker t handle service))).run w =
      (Sim.poll n (.wait (.registration broker t service
        (.discarding t handle s!"panicked: {payload.message}")))).run u
  /-- A panic that is not guarded against goes on to the caller in that turn, and the slot is given
  up. -/
  givesUp : ∀ n code t handle payload w v, (Sim.poll n code).run w = (.panic payload, v) →
    Sim.unguarded? service (.panicked payload) = some payload →
    (Sim.poll (n + 1) (.bind code (.settingUp broker t handle service))).run w =
      (.panic payload,
        ((Sim.dropWait (.registration broker t service (.settingUp t handle))).run v).2)
  /-- That takes one look, if there is room for it. -/
  discards : ∀ n t u handle reason w, w.allowance ≠ some 0 →
    ((w.brokers[broker]?.getD Sim.noBroker).mailbox.send u
      ⟨.discard handle.id, none⟩).2 ≠ .waits →
    ((Sim.poll (n + 1) (.wait (.registration broker t service
      (.discarding u handle reason)))).run w).1 =
        .value (.error (.initializationFailed handle.name reason))

/-- A report with one more listener that broke off. -/
def panicNoted (r : Report) (service : String) (payload : Payload) : Report :=
  { r with failures := r.failures ++ [⟨service, .panicked payload.message⟩] }

/-- A dispatch survives its listeners and tells in its report how they broke off. -/
structure ListenersContained (broker : Nat) : Prop where
  /-- The broker is closed, or there is a report with a verdict on each listener. -/
  called : ∀ event turns o, Runs (.begin (.fire broker event)) turns o →
    o = .returned (.error .closed) ∨ ∃ calls : List (Subscription Action × Verdict),
      (∀ c ∈ calls, Delivered event c.1 c.2) ∧
      o = .returned (.ok ((Report.ofEvent event).afterAll calls))
  /-- All listeners that are left are called whatever this one does, and a panic is one
  more entry of the report. -/
  ends : ∀ code alarm d s deadline turns o,
    Runs (.bind (code.guarded alarm) (.delivered broker d s deadline)) turns o →
    ∃ own code' r calls, Advances code own code' ∧ Opens own turns ∧
      calls.map Prod.fst = d.remaining ∧ (∀ c ∈ calls, Delivered d.event c.1 c.2) ∧
      o = .returned (.ok (r.afterAll calls)) ∧
      ∀ payload, code' = .panic payload →
        r = panicNoted d.report s.service.name payload
  /-- The turn of the panic goes on with the next listener, or with the report. -/
  atOnce : ∀ n code alarm d s deadline payload w v,
    (Sim.poll n code).run w = (.panic payload, v) →
    ∃ f u, (Sim.poll (n + 2) (.bind (code.guarded alarm)
        (.delivered broker d s deadline))).run w = (Sim.poll (n + 1) f).run u ∧
      Underway broker { d with report := panicNoted d.report s.service.name payload } f

/-- The task of a job survives its body and tells the pool how that broke off. -/
structure BodyContained (job : JobId) (body : JobBody) : Prop where
  /-- The job is cancelled before its body is called, or the rest of the turns are those of
  the body in the frame of the task. -/
  called : ∀ turns o, Runs (.begin (.task job body)) turns o →
    o = .returned (.error .canceled) ∨ ∃ alarm deadline rest,
      Runs (.bind ((Future.begin (.body job body)).guarded alarm) (.bodyEnd job deadline))
        rest o ∧
      rest.map Prod.snd <:+ turns.map Prod.snd
  /-- There is a result whatever the body does, and the pool has it in the end. -/
  ends : ∀ code alarm deadline turns o,
    Runs (.bind (code.guarded alarm) (.bodyEnd job deadline)) turns o →
    ∃ own code' result last, Advances code own code' ∧ Opens own turns ∧
      o = .returned result ∧ turns.getLast? = some last ∧
      ((last.2.pool.job? job).isSome → last.2.pool.result? job = some result) ∧
      (∀ payload, code' = .panic payload → result = .error (.panicked payload.message)) ∧
      ∀ r, code' = .value r → result = r
  /-- The turn of the panic goes on to tell the pool. -/
  atOnce : ∀ n code alarm deadline payload w v, (Sim.poll n code).run w = (.panic payload, v) →
    ∃ t u, (Sim.poll (n + 2) (.bind (code.guarded alarm) (.bodyEnd job deadline))).run w =
      (Sim.poll (n + 1) (.bind (.wait (.taking 1 t))
        (.andThen (.finishJob job (.panicked payload))))).run u
  /-- That takes one look, and the task ends with what it has told. -/
  tells : ∀ n t ending w, w.allowance ≠ some 0 →
    ((Sim.poll (n + 3) (.bind (.wait (.taking 1 t)) (.andThen (.finishJob job ending)))).run w).1 =
      .value ending.result

/-- Whoever waits for a job gets the result that the pool has, and nothing else. -/
structure WaitContained (job : JobId) : Prop where
  waits : ∀ t turns o, Runs (.wait (.jobResult job t)) turns o →
    ∃ turn ∈ turns, ∃ result, turn.1.pool.result? job = some result ∧ o = .returned result
  atOnce : ∀ n t result w, w.pool.result? job = some result → w.allowance ≠ some 0 →
    ((Sim.poll (n + 1) (.wait (.jobResult job t))).run w).1 = .value result
  lasts : ∀ (s : Scenario) w w' result, Scenario.Leads s.start w → Scenario.Leads w w' →
    w.pool.result? job = some result → w'.pool.result? job = some result

/-- The body of a blocking job survives its work, and the blocking thread does too. -/
structure WorkContained (job : JobId) (work : Work) : Prop where
  /-- The work gets a task of its own, and is not begun by that. -/
  handedOver : ∀ w,
    ((Sim.spawnBlocking job work).run w).2.tasks[((Sim.spawnBlocking job work).run w).1]? =
      some { running := .blocking job (.begin (.work job work)), isQueued := true }
  /-- When it has broken off or returned, its task is over and has a note of that, -/
  noted : ∀ task code ended w v, (Sim.poll Sim.pollFuel code).run w = (.done ended, v) →
    ∃ w', (Sim.advance task (.blocking job code)).run w = (.finished, w') ∧
      w'.blockingDone.lookup task = some ended
  /-- which stays as it is, -/
  lasts : ∀ (s : Scenario) w w' task ended, Scenario.Leads s.start w → Scenario.Leads w w' →
    w.blockingDone.lookup task = some ended → w'.blockingDone.lookup task = some ended
  /-- and the body of the job makes its own result of it. -/
  awaited : ∀ turns o, Runs (.begin (.body job (.blocking work))) turns o →
    ∃ first ∈ turns, ∃ turn ∈ turns, ∃ ended,
      turn.1.blockingDone.lookup ((Sim.spawnBlocking job work).run first.1).1 = some ended ∧
      (∀ payload, ended = .panicked payload →
        o = .returned (.error (.panicked payload.message))) ∧
      ∀ result, ended = .returned result → o = .returned result

section

variable {a b : Shape} {n : Nat} {payload : Payload} {w v : World}

namespace Sim

/-- A panic reaches the frame in the turn in which it happens. -/
theorem poll_bind_panic {code : Future a} (frame : Frame a b)
    (h : (poll n code).run w = (.panic payload, v)) :
    (poll (n + 1) (.bind code frame)).run w =
      (poll n ((resume frame (.panicked payload)).run v).1).run
        ((resume frame (.panicked payload)).run v).2 := by
  rw [poll_bind, h]
  rfl

/-- A guard hands a panic on in that turn. -/
theorem poll_guarded_panic {code : Future a} (alarm : Option Alarm)
    (h : (poll n code).run w = (.panic payload, v)) :
    ∃ u, (poll (n + 1) (code.guarded alarm)).run w = (.panic payload, u) := by
  have hguards := guards_poll n alarm code w
  rw [h] at hguards
  rcases hguards with ⟨hdone, -⟩ | ⟨hgoes, -⟩
  · exact ⟨_, Prod.ext hdone rfl⟩
  · exact absurd rfl (hgoes (.panicked payload))

end Sim

end

theorem setUpContained (broker : Nat) (service : Service) : SetUpContained broker service := by
  refine ⟨fun turns o => runs_register, ?ends, ?returns, ?escapes, ?atOnce, ?givesUp,
    fun n t u handle reason w => Sim.poll_discarding n t u handle reason⟩
  case ends =>
    intro code t handle turns o h
    obtain ⟨own, ended, hown, hopens, hescapes, hguarded⟩ := h.of_settingUp
    refine ⟨own, ended, hown, hopens, fun hnone => ?_, hescapes⟩
    obtain ⟨result, ho, hfails⟩ := hguarded hnone
    refine ⟨result, ho, ?_⟩
    rintro payload rfl
    exact hfails _ rfl
  case returns =>
    intro hservice turns o h
    rcases runs_register h with hclosed | ⟨t, handle, rest, hruns, -⟩
    · exact ⟨_, hclosed⟩
    · obtain ⟨-, ended, -, -, -, hguarded⟩ := hruns.of_settingUp
      obtain ⟨result, ho, -⟩ := hguarded (Sim.unguarded?_of_ne hservice ended)
      exact ⟨result, ho⟩
  case escapes =>
    rintro name payload rfl turns o h
    rcases runs_register h with hclosed | ⟨t, handle, rest, hruns, -⟩
    · exact Or.inl hclosed
    · obtain ⟨own, ended, hown, -, hescapes, -⟩ := hruns.of_settingUp
      obtain rfl := hown.of_abrupt
      exact Or.inr (hescapes payload rfl)
  case atOnce =>
    intro n code t handle payload w v h hguarded
    have hresume : ((Sim.resume (.settingUp broker t handle service) (.panicked payload)).run v).1 =
        .wait (.registration broker t service
          (.discarding t handle s!"panicked: {payload.message}")) :=
      Sim.resume_settingUp t handle hguarded v
    have hpolled := Sim.poll_bind_panic (.settingUp broker t handle service) h
    rw [hresume] at hpolled
    exact ⟨_, hpolled⟩
  case givesUp =>
    intro n code t handle payload w v h hescapes
    rw [Sim.poll_bind_panic (.settingUp broker t handle service) h,
      Sim.resume_settingUp_unguarded t handle hescapes]
    exact Sim.poll_done n _ _

theorem listenersContained (broker : Nat) : ListenersContained broker := by
  refine ⟨fun event turns o => runs_fire, ?ends, ?atOnce⟩
  case ends =>
    intro code alarm d s deadline turns o h
    obtain ⟨own, ended, calls, hguard, hopens, hcalls, hall, ho⟩ := h.of_delivered
    obtain ⟨own', code', hcode, hstarts, rfl, -⟩ := hguard.of_guarded
    have hopens' : Opens own' turns := by
      rw [Opens, hstarts]
      exact hopens
    refine ⟨own', code', _, calls, hcode, hopens', hcalls, hall, ho, ?_⟩
    rintro payload rfl
    rfl
  case atOnce =>
    intro n code alarm d s deadline payload w v h
    obtain ⟨u, hguard⟩ := Sim.poll_guarded_panic alarm h
    exact ⟨_, _, Sim.poll_bind_panic _ hguard,
      Sim.underway_delivered d s deadline (.panicked payload) u⟩

theorem bodyContained (job : JobId) (body : JobBody) : BodyContained job body := by
  refine ⟨fun turns o => runs_task, ?ends, ?atOnce, fun n t ending w =>
    Sim.poll_finishing n t ending⟩
  case ends =>
    intro code alarm deadline turns o h
    obtain ⟨own, ended, hguard, hopens, ho, last, hlast, htold⟩ := h.of_bodyEnd
    obtain ⟨own', code', hcode, hstarts, rfl, -⟩ := hguard.of_guarded
    have hopens' : Opens own' turns := by
      rw [Opens, hstarts]
      exact hopens
    refine ⟨own', code', _, last, hcode, hopens', ho, hlast, htold, ?_, ?_⟩
    · rintro payload rfl
      rfl
    · rintro result rfl
      rfl
  case atOnce =>
    intro n code alarm deadline payload w v h
    obtain ⟨u, hguard⟩ := Sim.poll_guarded_panic alarm h
    obtain ⟨t, hresume⟩ : ∃ t, (Sim.resume (.bodyEnd job deadline) (.panicked payload)).run u = _ :=
      Sim.resume_bodyEnd deadline (.panicked payload) u
    have hpolled := Sim.poll_bind_panic (.bodyEnd job deadline) hguard
    rw [hresume] at hpolled
    exact ⟨t, _, hpolled⟩

theorem waitContained (job : JobId) : WaitContained job := by
  refine ⟨?waits, ?atOnce, ?lasts⟩
  case waits => exact fun t turns o h => h.of_awaits (awaits_jobResult job t)
  case atOnce =>
    exact fun n t result w hresult => Sim.poll_awaits (awaits_jobResult job t) n hresult
  case lasts =>
    intro s w w' result hleads honward hresult
    obtain ⟨moves, hmoves⟩ := hleads.pool_onward honward
    rw [hmoves]
    exact Pool.result?_run hresult moves

theorem workContained (job : JobId) (work : Work) : WorkContained job work := by
  refine ⟨spawnBlocking_task job work, ?noted, ?lasts, ?awaited⟩
  case noted =>
    intro task code ended w v h
    obtain ⟨w', hrun, hdone, -⟩ := Sim.advance_blocking task job h
    refine ⟨w', hrun, ?_⟩
    rw [hdone, List.lookup_cons_self]
  case lasts =>
    exact fun s w w' task ended hleads honward => hleads.blockingDone_onward honward
  case awaited =>
    intro turns o h
    obtain ⟨first, hfirst, turn, hturn, ended, hended, ho⟩ := runs_blocking h
    refine ⟨first, hfirst, turn, hturn, ended, hended, ?_, ?_⟩
    · rintro payload rfl
      exact ho
    · rintro result rfl
      exact ho

/-- To submit a job is to give it a task, which is not begun by that. -/
theorem submit_task (name : String) (body : JobBody) (w : World) :
    ∃ v, Untold w v ∧ ((Sim.submit name body).run w).2.tasks = v.tasks.push
      { running := .job ((Sim.submit name body).run w).1
          (.begin (.task ((Sim.submit name body).run w).1 body))
        isQueued := true } :=
  ⟨((Sim.onPool (·.submit name)).run w).2, (Sim.leaves_onPool _ w).toUntouched.toUntold, rfl⟩

/-- Panics of foreign code are contained, but for one. No computation of a setup, listener, job or
blocking work takes its caller with it: wherever it panics, the registration fails, the report has
one more entry or the job ends, each with the text of the panic, and everybody else goes on. A
setup that breaks off when it is called does take its caller with it. -/
theorem panics_contained (broker : Nat) (service : Service) (name : String) (body : JobBody)
    (work : Work) (job : JobId) (w : World) (text : String) :
    SetUpContained broker service ∧
    ListenersContained broker ∧
    (∃ v, Untold w v ∧ ((Sim.submit name body).run w).2.tasks = v.tasks.push
      { running := .job ((Sim.submit name body).run w).1
          (.begin (.task ((Sim.submit name body).run w).1 body))
        isQueued := true }) ∧
    BodyContained job body ∧
    WaitContained job ∧
    WorkContained job work ∧
    (Payload.literal text).message = text ∧
    (Payload.owned text).message = text ∧
    Payload.other.message = "unknown panic" :=
  ⟨setUpContained broker service, listenersContained broker, submit_task name body w,
    bodyContained job body, waitContained job, workContained job work, rfl, rfl, rfl⟩

/-! ### One panic of each kind -/

def indexer : Handle := ⟨⟨1⟩, "indexer"⟩

/-- A service that breaks off in its setup. -/
def brokenIndexer : Service := .scripted "indexer" [] (.panic (.literal "boom") false) none

/-- A service whose setup breaks off when it is called. -/
def abruptIndexer : Service := .abrupt "indexer" (.literal "boom")

/-- A listener that breaks off when it is called. -/
def brokenListener : Subscription Action :=
  ⟨indexer, .applicationStartup,
    .applicationStartup, .scripted 0 ⟨.applicationStartup, "tag", [], .panic .other true, none⟩⟩

/-- A dispatch to that listener, and to no other after it. -/
def lastCall : Dispatch Action := .fresh ⟨0, .startup⟩ []

/-- A job that breaks off when it is called. -/
def brokenImport : JobBody := .scripted ⟨"import", [], .panic (.owned "no file") true⟩

/-- Blocking work that breaks off. -/
def brokenWork : Work := .script ⟨"render", [], .panic (.literal "boom") false⟩

/-- A world with a listener, and with a job that has ended with a panic. -/
def afterPanic : World :=
  { (Scenario.start {}) with
    calls := #[0]
    pool := (Pool.new {}).run
      [.submit "import", .begin ⟨1⟩ ⟨1, 0⟩, .finish ⟨1⟩ (.panicked (.owned "no file"))] }

/-- How a turn of so many moves breaks off. -/
def panicIn {a : Shape} (n : Nat) (code : Future a) (w : World) : Option Payload :=
  match ((Sim.poll n code).run w).1 with
  | .done (.panicked payload) => some payload
  | _ => none

theorem exists_of_panicIn {a : Shape} {n : Nat} {code : Future a} {w : World} {payload : Payload}
    (h : panicIn n code w = some payload) :
    ∃ v, (Sim.poll n code).run w = (.panic payload, v) := by
  rw [panicIn] at h
  split at h
  · rename_i hdone
    cases h
    exact ⟨_, Prod.ext hdone rfl⟩
  · cases h

theorem panics_contained_each :
    (∃ u, (Sim.poll (5 + 1) (.bind (.begin (.setUp 0 indexer brokenIndexer))
        (.settingUp 0 ⟨1, 0⟩ indexer brokenIndexer))).run afterPanic =
      (Sim.poll 5 (.wait (.registration 0 ⟨1, 0⟩ brokenIndexer
        (.discarding ⟨1, 0⟩ indexer "panicked: boom")))).run u) ∧
    ((Sim.poll (4 + 1) (.wait (.registration 0 ⟨1, 0⟩ brokenIndexer
        (.discarding ⟨1, 0⟩ indexer "panicked: boom")))).run afterPanic).1 =
      .value (.error (.initializationFailed "indexer" "panicked: boom")) ∧
    (Sim.poll (5 + 1) (.bind (.begin (.setUp 0 indexer abruptIndexer))
        (.settingUp 0 ⟨1, 0⟩ indexer abruptIndexer))).run afterPanic =
      (.panic (.literal "boom"), ((Sim.dropWait (.registration 0 ⟨1, 0⟩ abruptIndexer
        (.settingUp ⟨1, 0⟩ indexer))).run afterPanic).2) ∧
    (∃ f u, (Sim.poll (5 + 2) (.bind
        ((listenerCode brokenListener lastCall.event).guarded none)
        (.delivered 0 lastCall brokenListener none))).run afterPanic =
          (Sim.poll (5 + 1) f).run u ∧
      Underway 0 { lastCall with
        report := panicNoted (.ofEvent ⟨0, .startup⟩) "indexer" .other } f) ∧
    (∃ t u, (Sim.poll (5 + 2) (.bind ((Future.begin (.body ⟨1⟩ brokenImport)).guarded none)
        (.bodyEnd ⟨1⟩ none))).run afterPanic =
      (Sim.poll (5 + 1) (.bind (.wait (.taking 1 t))
        (.andThen (.finishJob ⟨1⟩ (.panicked (.owned "no file")))))).run u) ∧
    ((Sim.poll (0 + 1) (.wait (.jobResult ⟨1⟩ ⟨2, 0⟩))).run afterPanic).1 =
      .value (.error (.panicked "no file")) ∧
    ∃ w', (Sim.advance 4 (.blocking ⟨1⟩ (.begin (.work ⟨1⟩ brokenWork)))).run afterPanic =
        (.finished, w') ∧
      w'.blockingDone.lookup 4 = some (.panicked (.literal "boom")) := by
  obtain ⟨hsetUp, hlisteners, -, hbody, hwait, hwork, -⟩ :=
    panics_contained 0 brokenIndexer "import" brokenImport brokenWork ⟨1⟩ afterPanic "no file"
  obtain ⟨habrupt, -⟩ :=
    panics_contained 0 abruptIndexer "import" brokenImport brokenWork ⟨1⟩ afterPanic "no file"
  have hheld : afterPanic.allowance ≠ some 0 := by decide +kernel
  have hroom : ((afterPanic.brokers[0]?.getD Sim.noBroker).mailbox.send ⟨1, 0⟩
      ⟨.discard indexer.id, none⟩).2 ≠ .waits := by decide +kernel
  have hresult : afterPanic.pool.result? ⟨1⟩ = some (.error (.panicked "no file")) := by
    decide +kernel
  obtain ⟨v₁, hpanic₁⟩ := exists_of_panicIn
    (show panicIn 5 (.begin (.setUp 0 indexer brokenIndexer)) afterPanic = some (.literal "boom") by
      decide +kernel)
  have hcalled : (Sim.poll 5 (.begin (.setUp 0 indexer abruptIndexer))).run afterPanic =
      (.panic (.literal "boom"), afterPanic) := rfl
  obtain ⟨v₂, hpanic₂⟩ := exists_of_panicIn
    (show panicIn 5 (listenerCode brokenListener lastCall.event) afterPanic = some .other by
      decide +kernel)
  obtain ⟨v₃, hpanic₃⟩ := exists_of_panicIn
    (show panicIn 5 (.begin (.body ⟨1⟩ brokenImport)) afterPanic = some (.owned "no file") by
      decide +kernel)
  obtain ⟨v₄, hpanic₄⟩ := exists_of_panicIn
    (show panicIn Sim.pollFuel (.begin (.work ⟨1⟩ brokenWork)) afterPanic =
      some (.literal "boom") by decide +kernel)
  refine ⟨?setUp, ?discards, ?escapes, ?listener, ?job, ?wait, ?work⟩
  case setUp => exact hsetUp.atOnce 5 _ _ _ _ _ v₁ hpanic₁ rfl
  case discards => exact hsetUp.discards 4 _ _ _ _ _ hheld hroom
  case escapes => exact habrupt.givesUp 5 _ _ _ _ _ _ hcalled rfl
  case listener => exact hlisteners.atOnce 5 _ _ _ _ _ _ _ v₂ hpanic₂
  case job => exact hbody.atOnce 5 _ _ _ _ _ v₃ hpanic₃
  case wait => exact hwait.atOnce 0 _ _ _ hresult hheld
  case work => exact hwork.noted 4 _ _ _ v₄ hpanic₄

end EventHub.Simulation

namespace EventHub

open EventHub.Script EventHub.Simulation

namespace Scenario

/-- A service is registered whose setup breaks off when it is called. -/
def registersAbrupt : Step := .broker 0 (.register abruptIndexer none)

/-- What the script is told of that, and the world after it. -/
def abruptlyRegistered : StepAnswer × World := (runStep none registersAbrupt).run (start {})

/-- A blocking job is aborted while its work waits for something, and the work breaks off
when it has that. -/
def abortsRender : List Step :=
  [.control (.all [
      .pool (.submitBlocking ⟨"render", [.control (.waitGate "ready")],
        .panic (.literal "boom") false⟩ (some "job")),
      .control (.yields 20),
      .pool (.abort "job"),
      .control (.yields 20),
      .control (.openGate "ready")])]

/-- The world after that. -/
def renderAborted : World := ((abortsRender.mapM (runStep none)).run (start {})).2

end Scenario

/-- With what the code of a step broke off, if it did. -/
def Script.Result.panic? : Script.Result → Option String
  | .failed ⟨"panic", message⟩ => some message
  | _ => none

/-- How the work of each task that is noted broke off. -/
def notedPanics (w : World) : List (Option Payload) :=
  w.blockingDone.map fun noted =>
    match noted.2 with
    | .panicked payload => some payload
    | .returned _ => none

/-- Panics that are not told in a result. A service whose setup breaks off when it is called takes
along the code that registers it; and a job that is over when its work breaks off stays what it
is. -/
theorem panics_untold :
    Scenario.abruptlyRegistered.1.result.bind (·.panic?) = some "boom" ∧
    notedPanics Scenario.renderAborted = [some (.literal "boom")] ∧
    Scenario.renderAborted.pool.result? ⟨1⟩ = some (.error .canceled) := by
  decide +kernel

end EventHub
