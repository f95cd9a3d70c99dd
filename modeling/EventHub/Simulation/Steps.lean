import EventHub.Simulation.Begin

/-! What each step of a script calls, and how its answer is shown. -/

namespace EventHub.Simulation.Sim

open EventHub.Script

def answer (r : Script.Result) : Future .result := .value r

def noHandle : Script.Result := .badStep "no such handle"
def noJob : Script.Result := .badStep "no such job"
def noTask : Script.Result := .badStep "no such task"
def noRevision : Script.Result := .badStep "no such revision"
def noView : Script.Result := .badStep "no such representation"

/-- Refuses a step that names something nobody has. -/
def named {α : Type} (found : Option α) (missing : Script.Result)
    (go : α → Sim (Future .result)) : Sim (Future .result) :=
  match found with
  | none => return answer missing
  | some a => go a

def showView : Option View → Script.Result
  | none => .null
  | some r => .view r

def showGenerated (label : Option String) (f : Future .view) : Future .result :=
  (Future.bind f (.keepView label)).map fun
    | .ok r => showView r
    | .error e => .failed ⟨e.label, e.message⟩

def showEntry (f : Future .entry) : Future .result :=
  f.map (Result.ofWorkspace .entry)

def showUnit (f : Future .unit) : Future .result := f.map fun () => .null

def showDrain (f : Future .drain) : Future .result := f.map (Result.ofRuntime fun () => .null)

/-- Text of a broker. -/
def brokerText (b : Broker Action) : String :=
  let deadline :=
    match b.listenerDeadline with
    | none => "None"
    | some d => s!"Some({d.text})"
  "Broker \x7b closed: " ++ toString b.isClosed ++ ", listener_timeout: " ++ deadline ++ " \x7d"

def brokerStep (context : Context) (broker : Nat) : BrokerStep Step → Sim (Future .result)
  | .register service label =>
    return (Future.bind (.begin (.register broker service)) (.keepHandle label)).map
      (Result.ofBroker .handle)
  | .listen spec service => do
    let w ← get
    let owner :=
      match service with
      | some label => w.handles.lookup label
      | none => context.own
    named owner noHandle fun handle => do
      let listener ← listenerOf spec
      return (Future.begin (.subscribe broker handle listener)).map
        (Result.ofBroker fun () => .null)
  | .fire notice => do
    let e ← event notice
    return (Future.begin (.fire broker e)).map (Result.ofBroker .report)
  | .services => do
    let t ← ticket
    let f ← listing broker (·.call t .services)
    return f.map (Result.ofBroker fun list => .texts (list.map (·.text)))
  | .shut => do
    onBroker broker fun b => (b.close, ())
    return answer .null
  | .isClosed => do
    let closed := (← get).brokers[broker]?.map (·.isClosed)
    return answer (.bool (closed.getD false))
  | .describe => do
    let text := (← get).brokers[broker]?.map brokerText
    return answer (.text (text.getD ""))
  | .raceClose steps => return (Future.raceClose broker context steps).map .results
  | .abandon service ms fill => do
    let alarm ← ms.mapM fun ms => alarmAfter (.ofMillis ms)
    let fill := if ms.isSome then fill else 0
    return .abandon broker alarm fill (.begin (.register broker service))

def controlStep (context : Context) : ControlStep Step → Sim (Future .result)
  | .sleep ms => return showUnit (.begin (.sleep ms))
  | .all steps => return (Future.begin (.steps context .nowhere steps)).map .results
  | .yields rounds => return showUnit (.wait (.yielded rounds (← ticket)))
  | .waitGate gate => return showUnit (.wait (.gate gate (← ticket)))
  | .openGate gate => do
    openGate gate
    return answer .null
  | .within ms inner => do
    let alarm ← alarmAfter (.ofMillis ms)
    return (Future.within alarm (.begin (.step context inner))).map fun
      | none => .text "timeout"
      | some r => r
  | .spawn label steps => do
    context.token.forM fun job => updatePool (·.borrowToken job)
    let id ← spawn (.script context.token (.begin (.steps context .nowhere steps)))
    modify fun w => { w with taskLabels := setLabel w.taskLabels label id }
    return answer .null
  | .join label => do
    let w ← get
    named (w.taskLabels.lookup label) noTask fun id => do
      set { w with taskLabels := w.taskLabels.filter (·.1 ≠ label) }
      return (Future.wait (.task id (← ticket))).map fun
        | none => .text "aborted"
        | some list => .results list
  | .abort label => do
    named ((← get).taskLabels.lookup label) noTask fun id => do
      abortTask id
      return answer .null
  | .newBroker config =>
    match Limits.configExcess? config <|> Broker.refusal? config with
    | some payload => return .bind (.panic payload) .guarded
    | none => return answer (.number (← newBroker config))
  | .compareHandles a b => do
    let w ← get
    named (w.handles.lookup a) noHandle fun ha =>
      named (w.handles.lookup b) noHandle fun hb =>
        return answer (.order (ha = hb) (ha.id.val < hb.id.val))

def poolStep (context : Context) : PoolStep Step → Sim (Future .result)
  | .submit job label => submitted job.name label (.scripted job)
  | .submitBlocking job label => submitted job.name label (.blocking (.script job))
  | .wait label => do
    let w ← get
    named (w.jobLabels.lookup label) noJob fun id => do
      set { w with jobLabels := w.jobLabels.filter (·.1 ≠ label) }
      let t ← ticket
      return (Future.wait (.jobResult id t)).map Result.ofJob
  | .abort label => do
    let w ← get
    named (w.jobLabels.lookup label) noJob fun id => do
      let isTask (t : Task) : Bool :=
        match t.running with
        | .job other _ => other = id
        | _ => false
      match w.tasks.findIdx? isTask with
      | none => return answer .null
      | some task => do
        abortTask task
        return answer .null
  | .live => return answer (.texts (← get).pool.liveNames)
  | .isClosed => return answer (.bool (← get).pool.isClosed)
  | .shutdown grace =>
    match Limits.spanExcess? grace with
    | some payload => return .bind (.panic payload) .guarded
    | none => return showDrain (.begin (.shutdownPool grace))
  | .waitCancel =>
    named context.token (.badStep "not in a job") fun token => do
      return showUnit (.wait (.cancellation token (← ticket)))
  | .isCanceled =>
    named context.token (.badStep "not in a job") fun token => do
      let pool := (← get).pool
      return answer (.bool (pool.isCanceled token))
where
  submitted (name : String) (label : Option String) (body : JobBody) : Sim (Future .result) := do
    let id ← submit name body
    modify fun w => { w with jobLabels := setLabel w.jobLabels label id }
    return answer (.job id name)

def lifecycleStep : LifecycleStep Step → Sim (Future .result)
  | .start services =>
    return (Future.begin (.start services)).map (Result.ofRuntime .texts)
  | .stop reason => return showDrain (.begin (.stop reason))
  | .run services wake => do
    if let some wake := wake then
      let _ ← spawn (.unit (.begin (.wake wake)))
    return showDrain (.bind (.begin (.start services)) .runStarted)
  | .requestShutdown => do
    requestShutdown
    return answer .null
  | .shutdownRequested => return showUnit (.wait (.shutdown (← ticket)))
  | .isShuttingDown => return answer (.bool (← get).trigger.isPulled)
  | .config => return answer (.config (← get).config)

/-- Adds an entry that carries no content. -/
def addDirectory (ws : Nat)
    (add : Workspace → Except WorkspaceError (Workspace × Entry)) : Sim (Future .result) := do
  match add (← workspace ws) with
  | .error e => return answer (.failed ⟨e.label, e.message⟩)
  | .ok (state, entry) => do
    setWorkspace ws state
    return answer (.entry entry)

/-- Shows what a plain question to the workspace answers. -/
def ask {α : Type} (ws : Nat) (question : Workspace → Except WorkspaceError α)
    (display : α → Script.Result) : Sim (Future .result) := do
  return answer (Result.ofWorkspace display (question (← workspace ws)))

def keepViewLabel (label : Option String) : Option View → Sim Unit
  | none => return ()
  | some r => modify fun w => { w with viewLabels := setLabel w.viewLabels label r }

def asFailure {α : Type} : Except WorkspaceError α → Except Failure α
  | .ok a => .ok a
  | .error e => .error ⟨e.label, e.message⟩

/-- Writes out what a source stands for. -/
def exported (state : Workspace) (source : Export.Source) (writer : Writer) : Future .result :=
  let (writer, result) := writer.finish state { source }
  answer (.exported (asFailure result) writer.written)

def workspaceStep (ws : Nat) : WorkspaceStep → Sim (Future .result)
  | .isClosed => return answer (.bool (← workspace ws).isClosed)
  | .addDirectory name parent => addDirectory ws (·.addDirectory name parent)
  | .addArchive name parent => addDirectory ws (·.addArchive name parent)
  | .addFile name parent data => return showEntry (← addFile ws name parent data)
  | .addClass name parent data =>
    return showEntry (.bind (← addFile ws name parent data) (.classAdded ws data))
  | .update id data => return showEntry (← update ws id data)
  | .find path => ask ws (·.find path) .entry
  | .lookUp id => ask ws (·.entry id) .entry
  | .path id => ask ws (·.path id) .text
  | .directory id => ask ws (·.listing id) .entries
  | .tree id => ask ws (·.list id) .tree
  | .content id => ask ws (·.snapshot id) fun c => .bytes c.data
  | .snapshot id label => do
    let found := (← workspace ws).snapshot id
    if let .ok c := found then
      modify fun w => { w with revisions := setLabel w.revisions label c.revision }
    return answer (Result.ofWorkspace (fun c => .snapshot c.data c.revision) found)
  | .exportFile id writer => return exported (← workspace ws) (.file id) writer
  | .store id revision viewType data label => do
    named ((← get).revisions.lookup revision) noRevision fun revision => do
      let state ← workspace ws
      writeAll (state.storeRecords id revision viewType)
      match state.store id revision viewType data (← stamp) with
      | .error e => return answer (.failed ⟨e.label, e.message⟩)
      | .ok (state, r) => do
        setWorkspace ws state
        keepViewLabel label (some r)
        return answer (.view r)
  | .view id viewType label => do
    let found := (← workspace ws).view? id viewType
    if let .ok r := found then keepViewLabel label r
    return answer (Result.ofWorkspace showView found)
  | .viewData label viewType file => do
    named ((← get).viewLabels.lookup label) noView fun r =>
      let r := { r with viewType := viewType.getD r.viewType, file := file.getD r.file }
      ask ws (·.viewData r) .bytes

def showMapping : Except MappingError Unit → Script.Result
  | .ok () => .null
  | .error e => .failed ⟨e.label, e.message⟩

def setTypes (change : MappingTypes → Except MappingError MappingTypes) :
    Sim (Future .result) := do
  let w ← get
  match change w.mapper.types with
  | .error e => return answer (showMapping (.error e))
  | .ok types => do
    set { w with mapper := { w.mapper with types } }
    return answer .null

/-- Answer of a plugin that is asked whether it takes a file. One to which the
content is not shown takes every file of whose content it would judge. -/
def wants (file : Entry) (content : Option Bytes) : Wants → Outcome Bool
  | .always b => .returned b
  | .nameEnds text => .returned (file.name.endsWith text)
  | .contentStarts bytes => .returned (content.all bytes.isPrefixOf)
  | .panic payload => .panicked payload

def featureStep : FeatureStep Step → Sim (Future .result)
  | .newWorkspace broker => do
    let w ← get
    set { w with workspaces := w.workspaces.push { broker } }
    return answer (.number w.workspaces.size)
  | .compareViews a b => do
    let w ← get
    named (w.viewLabels.lookup a) noView fun ra =>
      named (w.viewLabels.lookup b) noView fun rb =>
        return answer (.bool (ra = rb))
  | .symbol name => setTypes (·.addSymbol name)
  | .reference name symbol => setTypes (·.addReference name symbol)
  | .referenced name => do
    match (← get).mapper.types.referenced? name with
    | none => return answer .null
    | some symbol => return answer (.text symbol)
  | .symbols => return answer (.texts (← get).mapper.types.sortedSymbols)
  | .factory name spec => do
    let p ← plugin spec
    let f : Mapper.Factory Plugin :=
      { name, wants := fun file content => wants file (some content) spec.wants, plugin := p }
    modify fun w => { w with mapper := w.mapper.addFactory f }
    return answer .null
  | .map file data => do
    match ← scheduleMappings file data with
    | (_, some payload) => return .bind (.panic payload) .guarded
    | (n, none) => return answer (.number n)
  | .generator viewType rendering spec => do
    let p ← plugin spec
    let g : Views.Generator Renderer :=
      { viewType, handles := fun file => wants file none spec.wants
        plugin := { rendering, plugin := p } }
    modify fun w => { w with views := w.views.add g }
    return answer .null
  | .view id viewType label =>
    return .bind (showGenerated label (.begin (.view id viewType))) .guarded
  | .exportView label writer => do
    named ((← get).viewLabels.lookup label) noView fun r => do
      return exported (← workspace 0) (.view r) writer

/-- Carries out a step. -/
def perform (context : Context) : Step → Sim (Future .result)
  | .broker index s => brokerStep context index s
  | .control s => controlStep context s
  | .pool s => poolStep context s
  | .lifecycle s => lifecycleStep s
  | .workspace index s => workspaceStep index s
  | .feature s => featureStep s
  | .unknown name => return answer (.badStep s!"unknown step '{name}'")

/-- How many things a step takes before it can be carried out. One that names
something nobody has takes nothing. -/
def needs : Step → Sim Nat
  | .pool .live => return 1
  | .workspace _ (.store _ revision ..) => do
    return if ((← get).revisions.lookup revision).isSome then 1 else 0
  | .workspace _ (.viewData label ..) => needsView label
  | .workspace .. => return 1
  | .feature (.exportView label _) => needsView label
  | .feature (.symbol _) => return 1
  | .feature (.reference ..) => return 1
  | .feature (.referenced _) => return 1
  | .feature .symbols => return 1
  | .feature (.factory ..) => return 1
  | .feature (.map ..) => return 1
  | .feature (.generator ..) => return 1
  | _ => return 0
where
  needsView (label : String) : Sim Nat := do
    return if ((← get).viewLabels.lookup label).isSome then 1 else 0

/-- What is recorded about a step before it takes anything. -/
def intention : Step → List Record
  | .workspace _ (.addDirectory name _) => [creating "directory" name []]
  | .workspace _ (.addArchive name _) => [creating "archive" name []]
  | .workspace _ (.addFile name _ data) => [creatingFile name data]
  | .workspace _ (.addClass name _ data) => [creatingFile name data]
  | .feature (.factory name _) =>
    [Mapper.note .debug "registered mapping factory" [("factory", name)]]
  | .feature (.generator viewType ..) =>
    [Views.note .debug "registered view generator" [("view_type", viewType)]]
  | _ => []
where
  creating (kind name : String) (more : List (String × String)) : Record :=
    Workspace.note .trace s!"creating {kind} entry in file tree" (("entry", name) :: more)
  creatingFile (name : String) (data : Bytes) : Record :=
    creating "file" name [("bytes", toString data.length)]

/-- Starts a step. -/
def step (context : Context) (s : Step) : Sim (Future .result) := do
  writeAll (intention s)
  match ← needs s with
  | 0 => perform context s
  | things => taking things (.perform context s)

end EventHub.Simulation.Sim
