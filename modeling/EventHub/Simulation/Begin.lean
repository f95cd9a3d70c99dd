import EventHub.Simulation.World
import EventHub.Workspace.Tree

/-!
What a computation does when it starts, up to the point where it has a value
or has to wait.
-/

namespace EventHub.Simulation

open EventHub.Script

/-- The bytes a renderer makes of a file, if its script lets it come to its end. -/
def Renderer.generate (r : Renderer) (_ : Entry) (content : Bytes) : Except String Bytes :=
  match r.rendering with
  | .hex => .ok (Text.utf8 (Text.hex content))
  | .reversed => .ok content.reverse
  | .constant bytes => .ok bytes
  | .same => .ok content

namespace Sim

/-- Goes on once the task has taken so many things. -/
def taking {a : Shape} (things : Nat) (next : Begin a) : Sim (Future a) :=
  return .bind (.wait (.taking things (← ticket))) (.andThen next)

/-- Code that listens, from a script; its calls are counted from here on. -/
def listenerOf (spec : ListenerSpec Step) : Sim (Listener Action) := do
  return { expects := spec.kind, action := .scripted (← slot) spec }

/-- Goes on with a registration. -/
def registering (broker : Nat) (ticket : Ticket) (service : Service)
    (act : Broker Action → Registration.Result Action) : Sim (Future .handle) := do
  let (next, orphan) ← onBroker broker
    fun b => let r := act b; (r.broker, (r.next, r.orphan))
  discardLater broker orphan
  match next with
  | .suspended stage => return .wait (.registration broker ticket service stage)
  | .setUp t handle =>
    return .bind (.begin (.setUp broker handle service)) (.settingUp broker t handle service)
  | .finished result => return .value result

/-- What a dispatch has come to; a listener call is guarded by the broker's
deadline. -/
def dispatched (broker : Nat) (deadline : Option Duration) :
    Dispatch.Next Action → Sim (Future .report)
  | .asking event call => return .wait (.asking broker event call)
  | .finished result => return .value result
  | .deliver s rest =>
    let inner : Future .listener :=
      match Dispatch.mismatch? s rest.event with
      | some e => .value (.error e)
      | none => .begin (.listener s.listener.action rest.event)
    match deadline with
    | none => return .bind (inner.map some) (.delivered broker rest s none)
    | some d => do
      let alarm ← alarmAfter d
      return .bind (.within alarm inner) (.delivered broker rest s (some d))

/-- Goes on with a dispatch. -/
def dispatching (broker : Nat)
    (act : Broker Action → Broker Action × Dispatch.Next Action) : Sim (Future .report) := do
  let (next, deadline) ← onBroker broker
    fun b => let (b, next) := act b; (b, (next, b.listenerDeadline))
  dispatched broker deadline next

def subscribed : Except BrokerError (Answer Action) → Except BrokerError Unit
  | .ok (.settled result) => result
  | .ok _ => .error .closed
  | .error e => .error e

def listed : Except BrokerError (Answer Action) → Except BrokerError (List Handle)
  | .ok (.services list) => .ok list
  | .ok _ => .error .closed
  | .error e => .error e

def subscribing (broker : Nat)
    (act : Broker Action → Broker Action × Called Action) : Sim (Future .subscribed) := do
  match ← onBroker broker act with
  | .suspended call => return .wait (.subscribing broker call)
  | .finished result => return .value (subscribed result)

def listing (broker : Nat)
    (act : Broker Action → Broker Action × Called Action) : Sim (Future .handles) := do
  match ← onBroker broker act with
  | .suspended call => return .wait (.listing broker call)
  | .finished result => return .value (listed result)

/-- The end of a scripted service's setup. -/
def setUpEnd : Ending → Future .setUp
  | .panic payload _ => .panic payload
  | .setup reason => .value (.error (.setup reason))
  | _ => .value (.ok ())

/-- A scripted service goes on with its setup. A listener without an owner is
the service's own, at the broker where it is being registered. -/
def setUpFrom (broker : Nat) (handle : Handle) (name : String) (ending : Ending) :
    List Step → Sim (Future .setUp)
  | [] => return setUpEnd ending
  | .broker _ (.listen spec none) :: rest => do
    let listener ← listenerOf spec
    return .bind (.begin (.subscribe broker handle listener))
      (.ownListen broker handle name rest ending)
  | step :: rest =>
    return .bind (.begin (.step { own := some handle } step))
      (.nextSetUp broker handle name rest ending)

/-- A built-in service subscribes its listeners one after another. -/
def listenAll (broker : Nat) (handle : Handle) (last : Option Record) :
    List (Listener Action) → Sim (Future .setUp)
  | [] => do
    writeAll last.toList
    return .value (.ok ())
  | listener :: rest =>
    return .bind (.begin (.subscribe broker handle listener))
      (.nextListen broker handle rest last)

def setUp (broker : Nat) (handle : Handle) : Service → Sim (Future .setUp)
  | .scripted name body ending leak => do
    modify fun w => { w with handles := setLabel w.handles leak handle }
    setUpFrom broker handle name ending body
  | .abrupt _ payload => return .panic payload
  | .eventLog =>
    listenAll broker handle none (EventKind.all.map fun kind => ⟨kind, .logEvent⟩)
  | .mapper => listenAll broker handle none [⟨.resourceAdded, .mapFile⟩]
  | .workspace index =>
    listenAll broker handle (some (Workspace.note .debug "workspace ready" []))
      [⟨.applicationShutdown, .closeWorkspace index⟩]

/-- The line that the event log writes for an event. -/
def logLine (e : Event) : Record :=
  let seq := ("seq", toString e.seq)
  let line (message : String) (fields : List (String × String)) : Record :=
    { origin := .eventLog, level := .info, message, fields := seq :: fields }
  match e.notice with
  | .startup => line "[startup]" []
  | .shutdown reason => line "[shutdown]" [("reason", reason.name)]
  | .added file content =>
    line "[resource-added]" [("file", file.name), ("bytes", toString content.length)]
  | .updated file content =>
    line "[resource-updated]" [("file", file.name), ("bytes", toString content.length)]

/-- Gives every factory that wants the file its job; what broke off one of the
factories, if something did. -/
def scheduleMappings (file : Entry) (content : Bytes) : Sim (Nat × Option Payload) := do
  let (factories, stopped) := Mapper.scheduled file content (← get).mapper.factories
  for f in factories do
    write (Mapper.scheduleRecord f file)
    let _ ← submit (Mapper.jobName f file) (.blocking (.mapFile f.name f.plugin file content))
  return (factories.length, stopped)

/-- A built-in listener does what it listens for. -/
def react (action : Action) (e : Event) : Sim (Future .listener) :=
  match action, e.notice with
  | .mapFile, .added file content => do
    match ← scheduleMappings file content with
    | (_, some payload) => return .panic payload
    | (_, none) => return .value (.ok ())
  | .closeWorkspace index, _ => do
    let state ← workspace index
    setWorkspace index state.close
    write (Workspace.note .info "workspace closed" [("files", toString state.files.length)])
    return .value (.ok ())
  | _, _ => return .value (.ok ())

/-- A listener is called. -/
def listener (action : Action) (e : Event) : Sim (Future .listener) :=
  match action with
  | .logEvent => do
    write (logLine e)
    return .value (.ok ())
  | .mapFile => taking 1 (.react action e)
  | .closeWorkspace _ => taking 1 (.react action e)
  | .scripted slot spec => do
    see (.called spec.tag e)
    if ← countCall slot spec.times then
      match spec.ending with
      | .panic payload true => return .panic payload
      | ending =>
        return .bind (.begin (.steps {} (.listener spec.tag) spec.body)) (.listenerEnd ending)
    else return .value (.ok ())

/-- The body of a job runs under the pool's deadline. -/
def runBody (job : JobId) (body : JobBody) : Sim (Future .job) := do
  let inner : Future .job := .begin (.body job body)
  match (← get).pool.deadline with
  | none => return .bind (inner.map some) (.bodyEnd job none)
  | some d =>
    let alarm ← alarmAfter d
    return .bind (.within alarm inner) (.bodyEnd job (some d))

/-- A job that may run has taken its permit, if there are permits, and its
place among the live jobs. -/
def admitted (job : JobId) (ticket : Ticket) (body : JobBody) : Pool.Admission → Sim (Future .job)
  | .run => do
    spend (if (← get).pool.limit.isSome then 2 else 1)
    runBody job body
  | .wait => return .wait (.permit job ticket body)
  | .canceled => return .value (.error .canceled)

/-- Hands work to the blocking thread, which takes it up in order. -/
def spawnBlocking (job : JobId) (work : Work) : Sim Nat := do
  updatePool (·.borrowToken job)
  let w ← get
  let id := w.tasks.size
  set { w with
    tasks := w.tasks.push { running := .blocking job (.begin (.work job work)), isQueued := true }
    blockingQueue := w.blockingQueue ++ [id] }
  return id

def body (job : JobId) : JobBody → Sim (Future .job)
  | .blocking work => do
    let task ← spawnBlocking job work
    return .wait (.blocking task (← ticket))
  | .scripted spec => do
    match spec.ending with
    | .panic payload true => return .panic payload
    | ending =>
      deed spec.name .started
      return .bind
        (.begin (.steps { token := some job } (.background spec.name) spec.body))
        (.scriptEnd job spec.name ending)

/-- A plugin is called: its script and its ending belong to its first calls.
The script cannot look at the token of the job that calls it. -/
def callPlugin (who : String) (p : Plugin) (content : Bytes)
    (rest : Ending → Frame .results .job) : Sim (Future .job) := do
  deed who (.given content)
  if ← countCall p.slot p.spec.times then
    return .bind (.begin (.steps {} (.background who) p.spec.body)) (rest p.spec.ending)
  else return .bind (.value []) (rest .done)

def work (job : JobId) : Work → Sim (Future .job)
  | .script spec => do
    deed spec.name .started
    return .bind
      (.begin (.steps { token := some job } (.background spec.name) spec.body))
      (.scriptEnd job spec.name spec.ending)
  | .importClass parser file content => do
    if (← get).pool.isCanceled job then return .value (.error .canceled)
    callPlugin s!"import:{file.name}" parser.plugin content (.importEnd parser.magic content)
  | .mapFile factory plugin file content =>
    callPlugin s!"map:{factory}:{file.name}" plugin content (.mapEnd job)
  | .render call renderer viewType file content =>
    callPlugin s!"view:{viewType}:{file.name}" renderer.plugin content (.renderEnd call)

def addFile (ws : Nat) (name : String) (parent : Option EntryId) (data : Bytes) :
    Sim (Future .entry) := do
  match (← workspace ws).addFile name parent data with
  | .error e => return .value (.error e)
  | .ok (state, entry) =>
    setWorkspace ws state
    announce ws entry (.added entry data)
where
  announce (ws : Nat) (entry : Entry) (notice : Notice) : Sim (Future .entry) := do
    let e ← event notice
    let broker := (((← get).workspaces[ws]?).map (·.broker)).getD 0
    return (Future.begin (.fire broker e)).map fun
      | .ok _ => .ok entry
      | .error err => .error (.broker err)

def update (ws : Nat) (id : EntryId) (data : Bytes) : Sim (Future .entry) := do
  let before ← workspace ws
  match before.update id data with
  | .error e => return .value (.error e)
  | .ok (state, entry) =>
    writeAll (before.updateRecords entry data)
    setWorkspace ws state
    addFile.announce ws entry (.updated entry data)

/-- The number of a new call for a view. -/
def newViewCall (file : EntryId) (viewType : String) : Sim Nat := do
  let w ← get
  set { w with viewCalls := w.viewCalls.push (.new file viewType) }
  return w.viewCalls.size

/-- The generator of a call for a view hands over what it has made. -/
def handOverView (call : Nat) : Sim Unit := modify fun w =>
  { w with viewCalls := w.viewCalls.modify call (·.handOver Renderer.generate) }

/-- Goes on with a call for a view as far as it comes without taking anything. -/
def goOnView (call : Nat) (c : Generation.Call Renderer) : Sim (Future .view) :=
  match c.stage with
  | .looking _ => taking 1 (.turnView call)
  | .rendering generator entry content _ => do
    let job ← submit (c.generation.jobName entry)
      (.blocking (.render call generator.plugin c.generation.viewType entry content.data))
    return .bind (.wait (.jobResult job (← ticket))) (.collect call)
  | .keeping .. => taking 2 (.turnView call)
  | .ended outcome => return .done outcome

/-- One turn of a call for a view. -/
def turnView (call : Nat) (job : JobResult) : Sim (Future .view) := do
  let state ← workspace 0
  let now ← stamp
  let w ← get
  let c := w.viewCalls[call]?.getD default
  writeAll (c.turnRecords state w.views now)
  let (state, next) := c.turn state w.views job now
  modify fun w => { w with viewCalls := w.viewCalls.set! call next }
  setWorkspace 0 state
  goOnView call next

def startNext : Startup.Next Service → Sim (Future .started)
  | .register service rest =>
    return .bind (.begin (.register 0 service)) (.decided rest)
  | .announce s => do
    let e ← event .startup
    return .bind (.begin (.fire 0 e)) (.announced s)
  | .failed e => return .value (.error e)

end Sim

end EventHub.Simulation
