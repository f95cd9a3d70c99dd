import EventHub.Record
import EventHub.Workspace.Error

/-!
The workspace: an in-memory tree of files and directories, the content of each
file with its revision, and cached views of it. Entries are only ever added;
new content raises the revision and drops the views of the old one.
-/

namespace EventHub

/-- Content of a file and how often it was replaced. -/
structure Content where
  data : Bytes
  revision : Revision
  deriving DecidableEq, Inhabited

/-- A view kept for a file. -/
structure KeptView where
  view : View
  data : Bytes
  deriving DecidableEq, Inhabited

structure Workspace where
  lastId : Nat := 0
  /-- Entries by id, in increasing order. -/
  files : List (EntryId × Entry) := []
  contents : List (EntryId × Content) := []
  /-- At most one view for a file and a type. -/
  views : List ((EntryId × String) × KeptView) := []
  isClosed : Bool := false

namespace Workspace

/-- A record about the workspace. -/
def note (level : Level) (message : String) (fields : List (String × String)) : Record :=
  { origin := .workspace, level, message, fields }

def entry? (w : Workspace) (id : EntryId) : Option Entry := w.files.lookup id

def entry (w : Workspace) (id : EntryId) : Except WorkspaceError Entry :=
  match w.entry? id with
  | some e => .ok e
  | none => .error (.unknownFile id)

/-- Whether entries may be put below `id`; the root takes entries always. -/
def checkDirectory (w : Workspace) : Option EntryId → Except WorkspaceError Unit
  | none => .ok ()
  | some id =>
    match w.entry id with
    | .error e => .error e
    | .ok e => if e.directory then .ok () else .error (.notADirectory id)

/-- The entry of a plain file. -/
def file (w : Workspace) (id : EntryId) : Except WorkspaceError Entry :=
  match w.entry id with
  | .error e => .error e
  | .ok e => if e.directory then .error (.isADirectory id) else .ok e

/-- Content of a file with its revision; both belong together. -/
def snapshot (w : Workspace) (id : EntryId) : Except WorkspaceError Content :=
  match w.file id with
  | .error e => .error e
  | .ok _ => .ok ((w.contents.lookup id).getD ⟨[], Revision.first⟩)

/-- Names are not empty and hold no separator. -/
def isValidName (name : String) : Bool :=
  !name.isEmpty && !name.toList.contains '/'

/-- Adds an entry at the end of the tree. -/
def insert (w : Workspace) (name : String) (parent : Option EntryId) (directory archive : Bool) :
    Except WorkspaceError (Workspace × Entry) :=
  if w.isClosed then .error .closed
  else if !isValidName name then .error (.invalidName name)
  else
    match w.checkDirectory parent with
    | .error e => .error e
    | .ok () =>
      let e : Entry := { id := ⟨w.lastId + 1⟩, name, parent, directory, archive }
      .ok ({ w with lastId := w.lastId + 1, files := w.files ++ [(e.id, e)] }, e)

def addDirectory (w : Workspace) (name : String) (parent : Option EntryId) :
    Except WorkspaceError (Workspace × Entry) :=
  w.insert name parent true false

def addArchive (w : Workspace) (name : String) (parent : Option EntryId) :
    Except WorkspaceError (Workspace × Entry) :=
  w.insert name parent true true

/-- Adds a file with its first content. -/
def addFile (w : Workspace) (name : String) (parent : Option EntryId) (data : Bytes) :
    Except WorkspaceError (Workspace × Entry) :=
  match w.insert name parent false false with
  | .error e => .error e
  | .ok (w, e) =>
    .ok ({ w with contents := w.contents ++ [(e.id, ⟨data, Revision.first⟩)] }, e)

def viewsOf (w : Workspace) (id : EntryId) : List ((EntryId × String) × KeptView) :=
  w.views.filter (·.1.1 = id)

/-- Puts `content` in the place of what a file held. -/
def setContent (w : Workspace) (id : EntryId) (content : Content) : Workspace :=
  match w.contents.lookup id with
  | none => { w with contents := w.contents ++ [(id, content)] }
  | some _ =>
    { w with contents := w.contents.map fun c => if c.1 = id then (id, content) else c }

/-- Replaces the content of a file, which gets its next revision and loses its
views. -/
def update (w : Workspace) (id : EntryId) (data : Bytes) :
    Except WorkspaceError (Workspace × Entry) :=
  if w.isClosed then .error .closed
  else
    match w.file id with
    | .error e => .error e
    | .ok e =>
      let revision := ((w.contents.lookup id).map (·.revision)).getD Revision.first
      let w := w.setContent id ⟨data, revision.next⟩
      .ok ({ w with views := w.views.filter (·.1.1 ≠ id) }, e)

/-- What is recorded about an update, seen from the state before it. -/
def updateRecords (w : Workspace) (e : Entry) (data : Bytes) : List Record :=
  let stale := w.viewsOf e.id
  let revision := (((w.contents.lookup e.id).map (·.revision)).getD Revision.first).next
  (if stale.isEmpty then []
   else
    [note .debug "representations invalidated"
      [("file", e.name), ("dropped", toString stale.length)]]) ++
  [note .trace "updated file content"
    [("file", e.name), ("bytes", toString data.length), ("revision", revision.text)]]

/-- Keeps a view that was derived from `revision`, if that is still current. -/
def store (w : Workspace) (id : EntryId) (revision : Revision) (viewType : String) (data : Bytes)
    (stamp : Nat) : Except WorkspaceError (Workspace × View) :=
  if w.isClosed then .error .closed
  else
    match w.snapshot id with
    | .error e => .error e
    | .ok content =>
      if content.revision ≠ revision then
        .error (.staleRevision id revision content.revision)
      else
        let r : View := { file := id, viewType, revision, stamp }
        let others := w.views.filter (·.1 ≠ (id, viewType))
        .ok ({ w with views := others ++ [((id, viewType), ⟨r, data⟩)] }, r)

/-- What is recorded about an attempt to keep a view. -/
def storeRecords (w : Workspace) (id : EntryId) (revision : Revision) (viewType : String) :
    List Record :=
  if w.isClosed then []
  else
    match w.file id, w.snapshot id with
    | .ok e, .ok content =>
      let fields := [("file", e.name), ("view_type", viewType), ("revision", revision.text)]
      if content.revision ≠ revision then
        [note .debug "discarding stale file view"
          (fields ++ [("current", content.revision.text)])]
      else [note .trace "creating file view" fields]
    | _, _ => []

/-- The view kept for a file and a type. -/
def view? (w : Workspace) (id : EntryId) (viewType : String) :
    Except WorkspaceError (Option View) :=
  match w.entry id with
  | .error e => .error e
  | .ok _ => .ok ((w.views.lookup (id, viewType)).map (·.view))

/-- Data of a view, if it is still the one that was stored under the stamp. -/
def viewData (w : Workspace) (r : View) : Except WorkspaceError Bytes :=
  match w.views.lookup (r.file, r.viewType) with
  | some v =>
    if v.view.stamp = r.stamp then .ok v.data
    else .error (.unknownView r.file r.viewType)
  | none => .error (.unknownView r.file r.viewType)

/-- The application is shutting down: nothing changes any more. -/
def close (w : Workspace) : Workspace := { w with isClosed := true }

end Workspace

end EventHub
