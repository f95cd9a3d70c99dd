import EventHub.Simulation.Steps

/-!
How a computation starts, and how it goes on with the result of the part it
waited for.
-/

namespace EventHub.Simulation.Sim

open EventHub.Script

def stepsFrom (context : Context) (sink : Sink) (done : List Script.Result) :
    List Step → Future .results
  | [] => .value done.reverse
  | s :: rest => .bind (.begin (.step context s)) (.nextStep context sink rest done)

def startStop (reason : ShutdownReason) : Sim (Future .drain) := do
  write (Startup.note .info "application shutting down" [("reason", reason.name)])
  requestShutdown
  let e ← event (.shutdown reason)
  return .bind (.begin (.fire 0 e)) .stopAnnounced

/-- Posts a discard that nobody waits for. -/
def posting (broker : Nat) (ticket : Ticket) (id : ServiceId) : Sim (Future .unit) := do
  let posted ← onBroker broker
    fun b =>
      let (mailbox, posted) := b.mailbox.send ticket ⟨.discard id, none⟩
      let b := { b with mailbox }
      (if posted = .accepted then b.wake [b.worker] else b, posted)
  match posted with
  | .waits => return .wait (.posting broker ticket id)
  | _ => return .value ()

/-- Starts a computation. -/
def begin {a : Shape} : Begin a → Sim (Future a)
  | .step context s => step context s
  | .perform context s => perform context s
  | .steps context sink steps => return stepsFrom context sink [] steps
  | .register broker service => do
    let t ← ticket
    registering broker t service (Registration.start · t (serviceName service))
  | .setUp broker handle service => setUp broker handle service
  | .subscribe broker handle listener => do
    let t ← ticket
    subscribing broker (·.call t (.subscribe handle listener))
  | .fire broker e => do
    let t ← ticket
    dispatching broker (Dispatch.start · t e)
  | .listener action e => listener action e
  | .react action e => react action e
  | .registry broker => return .wait (.commands broker)
  | .discard broker id => do
    let t ← ticket
    return .wait (.posting broker t id)
  | .sleep ms => return .wait (.alarm (← alarmAfter (.ofMillis ms)))
  | .wake w => return .bind (.begin (.sleep w.ms)) (.woken w)
  | .task job body => do
    let t ← ticket
    admitted job t body (← onPool (·.begin job t))
  | .body job body => Sim.body job body
  | .work job work => Sim.work job work
  | .finishJob job ending => do
    updatePool (·.finish job ending)
    return .value ending.result
  | .shutdownPool grace => do
    updatePool (·.close)
    taking 1 (.drain grace)
  | .drain grace => do
    updatePool (·.noteDrain grace)
    let alarm ← alarmAfter grace
    return .bind (.within alarm (.wait (.drained (← ticket)))) (.drainEnd grace)
  | .graceOver grace => do
    let e ← onPool (·.graceExceeded grace)
    return .value (.error e)
  | .view file viewType => do goOnView (← newViewCall file viewType) (.new file viewType)
  | .turnView call => turnView call (.ok ())
  | .start services => do
    startNext { remaining := (← get).preset ++ services : Startup Service }.advance
  | .stop reason => startStop reason
  | .interruption => do
    let t ← ticket
    let w ← get
    unless w.trigger.isPulled do
      set { w with interrupts := w.interrupts ++ [(t, none)] }
    return .wait (.interruption t)

/-- The end of a scripted listener. -/
def listenerEnd : Ending → Future .listener
  | .panic payload _ => .panic payload
  | .fail reason => .value (.error (.failed reason))
  | .timeout d => .value (.error (.timeout d))
  | .panicked info => .value (.error (.panicked info))
  | _ => .value (.ok ())

/-- The end of a scripted job, or of code that has no token to look at. -/
def jobEnd (token : Option JobId) (ending : Ending) : Sim (Future .job) := do
  match ending with
  | .panic payload _ => return .panic payload
  | .fail reason => return .value (.error (.fail reason))
  | .timeout d => return .value (.error (.timeout d))
  | .panicked info => return .value (.error (.panicked info))
  | .canceled => return .value (.error .canceled)
  | .ifCanceled =>
    let pool := (← get).pool
    if token.any pool.isCanceled then return .value (.error .canceled)
    else return .value (.ok ())
  | _ => return .value (.ok ())

def present (sink : Sink) (r : Script.Result) : Sim Unit :=
  match sink with
  | .nowhere => return ()
  | .listener tag => see (.inside tag r)
  | .background who => deed who (.did r)

/-- A class was added: its import becomes a job, if there is somebody to do it. -/
def importClass (ws : Nat) (entry : Entry) (content : Bytes) : Sim Unit := do
  match ((← get).workspaces[ws]?).bind (·.parser) with
  | none =>
    write (Workspace.note .warn "no class parser configured; import skipped"
      [("file", entry.name)])
  | some parser => do
    write (Workspace.note .trace "scheduling class parsing" [("file", entry.name)])
    let _ ← submit s!"class-import:{entry.name}" (.blocking (.importClass parser entry content))

/-- Gives up what a piece of code holds that will not go on. -/
def dropFrame {a b : Shape} : Frame a b → Sim Unit
  | .settingUp broker t handle _ => do
    let orphan ← onBroker broker fun br => Registration.giveUp br (.settingUp t handle)
    discardLater broker orphan
  | _ => return ()

/-- What a registration does not guard against. Its guard is around the computation that the
setup of its service becomes; a setup that breaks off when it is called has not become one. -/
def unguarded? : Service → Outcome (Except ServiceError Unit) → Option Payload
  | .abrupt .., .panicked payload => some payload
  | _, _ => none

/-- Goes on with a registration whose service has set itself up, or has not. What it does not
guard against takes it with it. -/
def setUpEnded (broker : Nat) (t : Ticket) (handle : Handle) (service : Service)
    (outcome : Outcome (Except ServiceError Unit)) : Sim (Future .handle) :=
  match unguarded? service outcome with
  | some payload => do
    dropFrame (.settingUp broker t handle service)
    return .panic payload
  | none => registering broker t service (Registration.setUpEnded · t handle outcome)

/-- Goes on with a result. Code that broke off takes its callers with it, up to
the first one that guards against that. -/
def resume {a b : Shape} : Frame a b → Outcome a.Value → Sim (Future b)
  | .guarded, .panicked payload => return answer (.failed ⟨"panic", payload.message⟩)
  | .settingUp broker t handle service, outcome =>
    setUpEnded broker t handle service outcome
  | .delivered broker d s deadline, outcome =>
    let verdict : Verdict :=
      match outcome with
      | .returned (some result) => .returned result
      | .returned none => .overdue (deadline.getD .zero)
      | .panicked payload => .panicked payload
    dispatching broker (Dispatch.ended · d s verdict)
  | .bodyEnd job deadline, outcome => do
    let ending : Pool.BodyEnd :=
      match outcome with
      | .returned (some result) => .returned result
      | .returned none => .overdue (deadline.getD .zero)
      | .panicked payload => .panicked payload
    taking 1 (.finishJob job ending)
  | frame, .panicked payload => do
    dropFrame frame
    return .panic payload
  | .andThen next, .returned () => return .begin next
  | .map f, .returned v => return .value (f v)
  | .guarded, .returned r => return answer r
  | .keepHandle label, .returned result => do
    if let .ok h := result then
      modify fun w => { w with handles := setLabel w.handles label h }
    return .value result
  | .keepView label, .returned result => do
    if let .ok r := result then keepViewLabel label r
    return .value result
  | .nextStep context sink rest done, .returned r => do
    present sink r
    return stepsFrom context sink (r :: done) rest
  | .nextSetUp broker handle name rest ending, .returned r => do
    see (.settingUp name r)
    setUpFrom broker handle name ending rest
  | .ownListen broker handle name rest ending, .returned result =>
    match result with
    | .ok () => setUpFrom broker handle name ending rest
    | .error e => return .value (.error (.broker e))
  | .nextListen broker handle rest last, .returned result =>
    match result with
    | .ok () => listenAll broker handle last rest
    | .error e => return .value (.error (.broker e))
  | .listenerEnd ending, .returned _ => return listenerEnd ending
  | .scriptEnd job who ending, .returned _ => do
    deed who .ended
    jobEnd (some job) ending
  | .importEnd magic content ending, .returned _ =>
    if magic.isPrefixOf content then jobEnd none ending
    else return .value (.error (.fail "bad magic"))
  | .mapEnd job ending, .returned _ => jobEnd (some job) ending
  | .renderEnd call ending, .returned _ =>
    match ending with
    | .panic payload _ => return .panic payload
    | .fail reason => return .value (.error (.fail reason))
    | _ => do
      handOverView call
      return .value (.ok ())
  | .drainEnd _, .returned (some ()) => do
    updatePool (·.drainEnded)
    return .value (.ok ())
  | .drainEnd grace, .returned none => taking 1 (.graceOver grace)
  | .classAdded ws content, .returned result => do
    if let .ok entry := result then importClass ws entry content
    return .value result
  | .collect call, .returned result => turnView call result
  | .decided s, .returned result => do
    let result := result.map (·.text)
    writeAll (Startup.decidedRecords result)
    startNext (s.decided result)
  | .announced s, .returned result =>
    match result with
    | .error e => return .value (.error (.broker e))
    | .ok report => do
      write (s.announcedRecord report.matched)
      return .value (.ok s.admitted)
  | .stopAnnounced, .returned result => do
    let grace := (← get).config.grace
    return .bind (.begin (.shutdownPool grace)) (.stopDrained (result.map fun _ => ()))
  | .stopDrained announced, .returned drained => do
    onBroker 0 fun b => (b.close, ())
    return .value (stopResult announced drained)
  | .runStarted, .returned result =>
    match result with
    | .error e => return .value (.error e)
    | .ok _ => return .bind (.begin .interruption) .interrupted
  | .interrupted, .returned reason => startStop reason
  | .woken w, .returned () => do
    match w.signal with
    | some name => raise name
    | none => requestShutdown
    return .value ()

end EventHub.Simulation.Sim
