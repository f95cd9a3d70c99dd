import EventHub.Workspace.Basic

/-!
Writing out what the workspace holds. An export reads its data once, offers them to a writer until
all of them are taken, and has the writer flushed. A writer may take fewer bytes than it is
offered, may run full, and may fail at any time; while an export waits for it, others may change
the workspace.
-/

namespace EventHub

/-- What is written out: the content of a file, or the data of a view. -/
inductive Export.Source where
  | file (id : EntryId)
  | view (view : View)

/-- How far an export has come. -/
inductive Export.Stage where
  | reading
  /-- Of the data, the writer has yet to take `rest`. -/
  | writing (data rest : Bytes)
  | flushing (data : Bytes)
  | ended (result : Except WorkspaceError (Option Nat))

structure Export where
  source : Export.Source
  stage : Export.Stage := .reading

namespace Export

/-- The data of a source, as they are by now. -/
def Source.data (w : Workspace) : Source → Except WorkspaceError Bytes
  | .file id => (w.snapshot id).map (·.data)
  | .view r => w.viewData r

/-- How many bytes were written is told of a file only. -/
def Source.count (data : Bytes) : Source → Option Nat
  | .file _ => some data.length
  | .view _ => none

/-- What is left is offered to the writer, which is flushed once nothing is. -/
def Stage.offering (data : Bytes) : Bytes → Stage
  | [] => .flushing data
  | b :: rest => .writing data (b :: rest)

/-- After the writer was offered `rest`. To take none of it is a failure too. -/
def Stage.wrote (data rest : Bytes) : Except String Nat → Stage
  | .error reason => .ended (.error (.write reason))
  | .ok 0 => .ended (.error (.write "write zero"))
  | .ok taken => .offering data (rest.drop taken)

/-- One turn of an export. If the writer is asked for something, it gives this answer; to an offer,
with how many bytes it has taken. -/
def turn (e : Export) (w : Workspace) (answer : Except String Nat) : Export :=
  match e.stage with
  | .reading =>
    match e.source.data w with
    | .error refusal => { e with stage := .ended (.error refusal) }
    | .ok data => { e with stage := .offering data data }
  | .writing data rest => { e with stage := .wrote data rest answer }
  | .flushing data =>
    match answer with
    | .error reason => { e with stage := .ended (.error (.write reason)) }
    | .ok _ => { e with stage := .ended (.ok (e.source.count data)) }
  | .ended _ => e

def result? (e : Export) : Option (Except WorkspaceError (Option Nat)) :=
  match e.stage with
  | .ended result => some result
  | _ => none

/-- A bound on the turns that an export has left. -/
def left (e : Export) (w : Workspace) : Nat :=
  match e.stage with
  | .reading => ((e.source.data w).toOption.getD []).length + 3
  | .writing _ rest => rest.length + 2
  | .flushing _ => 1
  | .ended _ => 0

theorem left_offering (source : Source) (w : Workspace) (data rest : Bytes) :
    left { source, stage := .offering data rest } w ≤ rest.length + 2 := by
  cases rest with
  | nil => exact Nat.le_succ 1
  | cons b rest => exact Nat.le_refl _

/-- Every turn brings an export nearer to its end. -/
theorem left_turn_lt {e : Export} (h : e.result? = none) (w w' : Workspace)
    (answer : Except String Nat) : (e.turn w answer).left w' < e.left w := by
  obtain ⟨source, stage⟩ := e
  cases stage with
  | reading =>
      cases hdata : source.data w with
      | error refusal =>
          simp only [turn, left, hdata]
          exact Nat.succ_pos _
      | ok data =>
          simp only [turn, hdata]
          refine Nat.lt_of_le_of_lt (left_offering source w' data data) ?_
          simp only [left, hdata, Except.toOption, Option.getD_some]
          exact Nat.lt_succ_self _
  | writing data rest =>
      cases answer with
      | error reason => exact Nat.succ_pos _
      | ok taken =>
          cases taken with
          | zero => exact Nat.succ_pos _
          | succ n =>
              cases rest with
              | nil => exact Nat.lt_succ_self 1
              | cons b rest =>
                  refine Nat.lt_of_le_of_lt (left_offering source w' data _) ?_
                  simp only [left, List.length_drop, List.length_cons]
                  omega
  | flushing data => cases answer <;> exact Nat.succ_pos _
  | ended result => cases h

end Export

/-- A writer and what it has taken so far. -/
structure Writer where
  /-- How many bytes one write takes at most. -/
  chunk : Option Nat := none
  /-- How many bytes it takes altogether. -/
  limit : Option Nat := none
  /-- A full writer takes no bytes instead of failing. -/
  fullTakesNone : Bool := false
  /-- Why a flush fails, if it does. -/
  flushFailure : Option String := none
  written : Bytes := []
  deriving Inhabited

namespace Writer

/-- One write: the writer afterwards and how many bytes it took. -/
def write (w : Writer) (data : Bytes) : Writer × Except String Nat :=
  let room := (w.limit.getD (w.written.length + data.length)) - w.written.length
  if w.limit.isSome && room = 0 then
    (w, if w.fullTakesNone then .ok 0 else .error "disk full")
  else
    let taken := min (min data.length room) (w.chunk.getD data.length)
    ({ w with written := w.written ++ data.take taken }, .ok taken)

def flush (w : Writer) : Except String Unit :=
  match w.flushFailure with
  | none => .ok ()
  | some reason => .error reason

/-- The writer after a turn of an export, and its answer if it was asked for something. -/
def respond (w : Writer) : Export.Stage → Writer × Except String Nat
  | .writing _ rest => w.write rest
  | .flushing _ => (w, w.flush.map fun () => 0)
  | .reading | .ended _ => (w, .ok 0)

/-- Lets an export run to its end; this writer is always ready to answer. -/
def finish (state : Workspace) (w : Writer) (e : Export) :
    Writer × Except WorkspaceError (Option Nat) :=
  match _h : e.result? with
  | some result => (w, result)
  | none => finish state (w.respond e.stage).1 (e.turn state (w.respond e.stage).2)
termination_by e.left state
decreasing_by exact Export.left_turn_lt ‹_› state state _

end Writer

end EventHub
