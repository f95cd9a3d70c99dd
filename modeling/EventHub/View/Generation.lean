import EventHub.View.Error
import EventHub.Workspace.Basic

/-!
Producing a view of a file. A cached view is returned as it is. Otherwise the
generator of the view's type gets the current content; its data is kept only
if the file still has the revision it was made from, and if not the generation
starts over, three times in all. Between any two looks of an attempt, and while
it renders, others may change what it looks at.
-/

namespace EventHub

/-- Produces views of one type. -/
structure Views.Generator (P : Type) where
  viewType : String
  handles : Entry → Outcome Bool
  plugin : P

/-- The generators, at most one for a type. -/
structure Views (P : Type) where
  generators : List (Views.Generator P) := []

namespace Views

variable {P : Type}

def note (level : Level) (message : String) (fields : List (String × String)) : Record :=
  { origin := .view, level, message, fields }

/-- A later generator takes the place of an earlier one of the same type. -/
def add (v : Views P) (g : Views.Generator P) : Views P :=
  { v with generators := v.generators.filter (·.viewType ≠ g.viewType) ++ [g] }

def generator? (v : Views P) (viewType : String) : Option (Views.Generator P) :=
  v.generators.find? (·.viewType = viewType)

end Views

/-- A request for a view; attempts count from one. -/
structure Generation where
  file : EntryId
  viewType : String
  attempt : Nat := 1
  deriving DecidableEq, Inhabited

namespace Generation

variable {P : Type}

abbrev Result := Except ViewError (Option View)

/-- How often a file that keeps changing is tried. -/
def maxAttempts : Nat := 3

/-- What an attempt looks up next, and what it found so far. -/
inductive Look (P : Type) where
  /-- Is there a view already? -/
  | kept
  | generator
  /-- Does the generator take the file? -/
  | entry (generator : Views.Generator P)
  | content (generator : Views.Generator P) (entry : Entry)

/-- What happens next in a generation. -/
inductive Next (P : Type) where
  | finished (result : Outcome Result)
  | look (next : Look P)
  | render (generator : Views.Generator P) (entry : Entry) (content : Content)

/-- One look of an attempt. Each sees the workspace and the generators as they are by then. -/
def look (g : Generation) (w : Workspace) (v : Views P) : Look P → Next P
  | .kept =>
    match w.view? g.file g.viewType with
    | .error e => .finished (.returned (.error (.workspace e)))
    | .ok (some r) => .finished (.returned (.ok (some r)))
    | .ok none => .look .generator
  | .generator =>
    match v.generator? g.viewType with
    | none => .finished (.returned (.error (.unknownGenerator g.viewType)))
    | some generator => .look (.entry generator)
  | .entry generator =>
    match w.entry g.file with
    | .error e => .finished (.returned (.error (.workspace e)))
    | .ok entry =>
      match generator.handles entry with
      | .panicked payload => .finished (.panicked payload)
      | .returned false => .finished (.returned (.ok none))
      | .returned true => .look (.content generator entry)
  | .content generator entry =>
    match w.snapshot g.file with
    | .error e => .finished (.returned (.error (.workspace e)))
    | .ok content => .render generator entry content

/-- What is recorded about a look. -/
def lookRecords (g : Generation) : Next P → List Record
  | .finished (.returned (.ok (some _))) =>
    [Views.note .debug "reusing existing representation"
      [("file", toString g.file), ("view_type", g.viewType)]]
  | .finished _ | .look _ => []
  | .render _ entry content =>
    [Views.note .info "creating representation"
      [("file", entry.name), ("view_type", g.viewType), ("revision", content.revision.text)]]

/-- After the data was rendered: keep it, start over, or fail. -/
inductive Kept where
  | finished (workspace : Workspace) (result : Result)
  | again (generation : Generation) (current : Revision)

def keep (g : Generation) (w : Workspace) (revision : Revision) (data : Bytes) (stamp : Nat) :
    Kept :=
  match w.store g.file revision g.viewType data stamp with
  | .ok (w, r) => .finished w (.ok (some r))
  | .error (.staleRevision file old current) =>
    if g.attempt < maxAttempts then .again { g with attempt := g.attempt + 1 } current
    else .finished w (.error (.workspace (.staleRevision file old current)))
  | .error e => .finished w (.error (.workspace e))

def againRecord (g : Generation) (revision current : Revision) : Record :=
  Views.note .debug "file changed during generation"
    [("file", toString g.file), ("view_type", g.viewType), ("revision", revision.text),
     ("current", current.text), ("attempt", toString g.attempt)]

def jobName (g : Generation) (entry : Entry) : String :=
  s!"view:{g.viewType}:{entry.name}"

/-- How far an attempt has come. -/
inductive Stage (P : Type) where
  | looking (look : Look P)
  /-- The generator works; `made` is what it has handed over. -/
  | rendering (generator : Views.Generator P) (entry : Entry) (content : Content)
      (made : Option Bytes)
  | keeping (revision : Revision) (data : Bytes)
  | ended (outcome : Outcome Result)

def Next.stage : Next P → Stage P
  | .finished outcome => .ended outcome
  | .look next => .looking next
  | .render generator entry content => .rendering generator entry content none

/-- What becomes of an attempt when the job of its generator has ended. -/
def collect (revision : Revision) (made : Option Bytes) : Except JobError Unit → Stage P
  | .error e => .ended (.returned (.error (.job e)))
  | .ok () =>
    match made with
    | some data => .keeping revision data
    | none => .ended (.returned (.error (.job .canceled)))

/-- A call for a view. It works on its attempts one after another. -/
structure Call (P : Type) where
  generation : Generation
  stage : Stage P := .looking .kept

namespace Call

def new (file : EntryId) (viewType : String) : Call P := { generation := { file, viewType } }

instance : Inhabited (Call P) := ⟨{ generation := default }⟩

/-- The generator has come to its end. -/
def handOver (generate : P → Entry → Bytes → Except String Bytes) (c : Call P) : Call P :=
  match c.stage with
  | .rendering generator entry content _ =>
    let made := (generate generator.plugin entry content.data).toOption
    { c with stage := .rendering generator entry content made }
  | _ => c

/-- One turn of a call: a look, the end of the generator's job, or the attempt to keep the
data. What the call sees and changes is as it is by then. -/
def turn (c : Call P) (w : Workspace) (v : Views P) (job : Except JobError Unit) (now : Nat) :
    Workspace × Call P :=
  match c.stage with
  | .looking stage => (w, { c with stage := (c.generation.look w v stage).stage })
  | .rendering _ _ content made => (w, { c with stage := collect content.revision made job })
  | .keeping revision data =>
    match c.generation.keep w revision data now with
    | .finished w result => (w, { c with stage := .ended (.returned result) })
    | .again generation _ => (w, { generation })
  | .ended _ => (w, c)

/-- What is recorded about a turn. -/
def turnRecords (c : Call P) (w : Workspace) (v : Views P) (now : Nat) : List Record :=
  match c.stage with
  | .looking stage => c.generation.lookRecords (c.generation.look w v stage)
  | .keeping revision data =>
    w.storeRecords c.generation.file revision c.generation.viewType ++
      match c.generation.keep w revision data now with
      | .finished .. => []
      | .again _ current => [c.generation.againRecord revision current]
  | _ => []

end Call

end Generation

end EventHub
