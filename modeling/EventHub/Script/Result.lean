import EventHub.Broker.Registry
import EventHub.Pool.Basic
import EventHub.Report
import EventHub.Workspace.Error

/-!
What a step answers, and what listeners, services, jobs and plugins leave
behind while it runs.
-/

namespace EventHub.Script

/-- A label and a message. -/
structure Failure where
  label : String
  message : String
  deriving DecidableEq, Inhabited

inductive Result where
  | null
  | bool (b : Bool)
  | number (n : Nat)
  | text (s : String)
  | texts (list : List String)
  | bytes (data : Bytes)
  | handle (h : Handle)
  | order (same less : Bool)
  | report (r : Report)
  | job (id : JobId) (name : String)
  | config (c : Config)
  | entry (e : Entry)
  | entries (list : List Entry)
  | tree (nodes : List EntryTree)
  | snapshot (data : Bytes) (revision : Revision)
  | view (v : View)
  | results (list : List Result)
  | exported (result : Except Failure (Option Nat)) (written : Bytes)
  | failed (f : Failure)
  deriving Inhabited

namespace Result

def badStep (message : String) : Result := .failed ⟨"bad_step", message⟩

def ofBroker {α : Type} (display : α → Result) : Except BrokerError α → Result
  | .ok a => display a
  | .error e => .failed ⟨e.label, e.message⟩

def ofWorkspace {α : Type} (display : α → Result) : Except WorkspaceError α → Result
  | .ok a => display a
  | .error e => .failed ⟨e.label, e.message⟩

def ofRuntime {α : Type} (display : α → Result) : Except RuntimeError α → Result
  | .ok a => display a
  | .error e => .failed ⟨e.label, e.message⟩

def ofJob : JobResult → Result
  | .ok () => .null
  | .error e => .failed ⟨e.label, e.message⟩

end Result

/-- What was seen in the foreground. -/
inductive Seen where
  | called (tag : String) (event : Event)
  | inside (tag : String) (result : Result)
  | settingUp (service : String) (result : Result)

/-- What a job or plugin did. -/
inductive Deed where
  | started
  | ended
  | given (data : Bytes)
  | did (result : Result)

end EventHub.Script
