import EventHub.Workspace.Basic

/-!
Paths and listings of the workspace tree. A parent is always older than what
lies below it, so walks to the root and listings downwards both end.
-/

namespace EventHub.Workspace

/-- Names from the entry up to the root, over at most `steps` parents. -/
def namesUp (w : Workspace) : Nat → Entry → List String
  | 0, e => [e.name]
  | steps + 1, e =>
    match e.parent.bind w.entry? with
    | none => [e.name]
    | some p => e.name :: namesUp w steps p

/-- Names from the root down to the entry. -/
def pathNames (w : Workspace) (e : Entry) : List String :=
  (w.namesUp w.lastId e).reverse

/-- Path of an entry, relative to the root. -/
def pathText (w : Workspace) (e : Entry) : String :=
  "/".intercalate (w.pathNames e)

def path (w : Workspace) (id : EntryId) : Except WorkspaceError String :=
  (w.entry id).map w.pathText

/-- Entries directly below `parent`, ordered by id. -/
def children (w : Workspace) (parent : Option EntryId) : List Entry :=
  (w.files.map (·.2)).filter (·.parent = parent)

def listing (w : Workspace) (directory : Option EntryId) :
    Except WorkspaceError (List Entry) :=
  (w.checkDirectory directory).map fun () => w.children directory

/-- The tree below `parent`, down to `depth` levels. -/
def treeBelow (w : Workspace) : Nat → Option EntryId → List EntryTree
  | 0, _ => []
  | depth + 1, parent =>
    (w.children parent).map fun e =>
      .node e (if e.directory then treeBelow w depth (some e.id) else [])

/-- The whole tree below `root`; no branch is longer than there are entries. -/
def list (w : Workspace) (root : Option EntryId) : Except WorkspaceError (List EntryTree) :=
  (w.checkDirectory root).map fun () => w.treeBelow w.lastId root

/-- A text without the separators at its ends. -/
def trimSeparators (path : String) : List Char :=
  ((path.toList.dropWhile (· = '/')).reverse.dropWhile (· = '/')).reverse

/-- Whether a full path is `needle` or ends with it after a separator. -/
def matchesPath (full needle : List Char) : Bool :=
  full = needle || ('/' :: needle).isSuffixOf full

/-- The single entry whose path is, or ends with, the path asked for. -/
def find (w : Workspace) (path : String) : Except WorkspaceError Entry :=
  let needle := trimSeparators path
  match (w.files.map (·.2)).filter fun e => matchesPath (w.pathText e).toList needle with
  | [] => .error (.notFound path)
  | [e] => .ok e
  | found => .error (.ambiguous path found.length)

end EventHub.Workspace
