import EventHub.Simulation.Schedule

/-!
A scenario: a system built from a configuration, and a script whose steps are
run one after another. Each step is left time to settle before its answer is
collected.
-/

namespace EventHub

open EventHub.Script EventHub.Simulation

/-- How the application is told to start a service by itself. -/
inductive Preset where
  /-- The event log, before all services told so far. -/
  | eventLogFirst
  | service (service : Service)
  deriving Inhabited

structure Scenario where
  config : Config := {}
  preset : List Preset := []
  /-- The parser of classes, with how their content starts. -/
  parser : Option (Bytes × PluginSpec Step) := none
  /-- Least severe level of the records that are shown. -/
  level : Option Level := none
  steps : List Step := []

/-- What one step answered and what was observed meanwhile. -/
structure StepAnswer where
  /-- Missing if the step never ended. -/
  result : Option Script.Result
  elapsed : Nat
  seen : List Seen
  /-- What jobs and plugins did, sorted by who did it. -/
  deeds : List (String × Deed)
  records : List Record
  /-- Records of the registry and the pool, sorted by job. -/
  background : List Record

namespace Scenario

/-- The services that the application starts by itself, in their order. -/
def presetServices (told : List Preset) : List Service :=
  told.foldl place []
where
  place (placed : List Service) : Preset → List Service
    | .eventLogFirst => .eventLog :: placed
    | .service s => placed ++ [s]

/-- The system before the first step. The first task is nobody's. -/
def start (s : Scenario) : World :=
  let empty : World :=
    { config := s.config
      pool := Pool.new s.config
      preset := presetServices s.preset
      tasks := #[{ running := .finished }] }
  let build : Sim Unit := do
    let broker ← Sim.newBroker s.config
    let parser ← s.parser.mapM fun (magic, spec) => do
      return { magic, plugin := ← Sim.plugin spec : Parser }
    modify fun w => { w with workspaces := #[{ broker, parser }] }
  (build.run empty).2

/-- Turns that one step may take. -/
def stepFuel : Nat := 10000000

def isShown (level : Option Level) (r : Record) : Bool :=
  match level with
  | none => false
  | some l => r.level.rank ≤ l.rank

/-- Runs one step, in its turn among the tasks, and collects what it left
behind. -/
def runStep (level : Option Level) (s : Step) : Sim StepAnswer := do
  let started := (← get).clock
  modify fun w =>
    { w with answer := none, isSettled := false, seen := [], deeds := [], records := [] }
  let _ ← Sim.spawn (.main (.begin (.step {} s)))
  Sim.runTurns stepFuel
  let w ← get
  let shown := w.records.filter (isShown level)
  let (background, foreground) := shown.partition (·.origin.isBackground)
  return {
    result := w.answer.map Prod.fst
    elapsed := (w.answer.map fun a => a.2 - started).getD 0
    seen := w.seen
    deeds := w.deeds.mergeSort fun a b => !(b.1 < a.1)
    records := foreground
    background := background.mergeSort fun a b => a.job.getD 0 ≤ b.job.getD 0 }

/-- What breaks off the making of the system. -/
def refusal? (s : Scenario) : Option Payload :=
  Limits.configExcess? s.config <|> Broker.refusal? s.config <|> Pool.refusal? s.config

/-- The answers of all steps, if the system can be made. -/
def run (s : Scenario) : Except Payload (List StepAnswer) :=
  match s.refusal? with
  | some payload => .error payload
  | none => .ok ((s.steps.mapM (runStep s.level)).run s.start).1

end Scenario

end EventHub
