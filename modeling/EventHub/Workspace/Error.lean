import EventHub.Error
import EventHub.Workspace.Entry

/-! The ways in which the workspace refuses a request. -/

namespace EventHub

inductive WorkspaceError where
  | closed
  | invalidName (name : String)
  | unknownFile (id : EntryId)
  | notADirectory (id : EntryId)
  | isADirectory (id : EntryId)
  | notFound (path : String)
  | ambiguous (path : String) (candidates : Nat)
  | unknownView (file : EntryId) (viewType : String)
  | staleRevision (file : EntryId) (revision current : Revision)
  | write (reason : String)
  | broker (error : BrokerError)
  deriving DecidableEq, Inhabited

namespace WorkspaceError

def label : WorkspaceError → String
  | closed => "workspace_closed"
  | invalidName _ => "workspace_invalid_name"
  | unknownFile _ => "workspace_unknown_file"
  | notADirectory _ => "workspace_not_a_directory"
  | isADirectory _ => "workspace_is_a_directory"
  | notFound _ => "workspace_not_found"
  | ambiguous .. => "workspace_ambiguous_path"
  | unknownView .. => "workspace_unknown_representation"
  | staleRevision .. => "workspace_stale_revision"
  | write _ => "workspace_io"
  | broker e => e.label

def message : WorkspaceError → String
  | closed => "workspace is closed"
  | invalidName name => s!"invalid entry name '{name}'"
  | unknownFile id => s!"file {id} does not exist"
  | notADirectory id => s!"file {id} is not a directory"
  | isADirectory id => s!"file {id} is a directory"
  | notFound path => s!"file with path '{path}' does not exist"
  | ambiguous path candidates =>
    s!"{candidates} files match the partial path '{path}', please specify"
  | unknownView file viewType => s!"no '{viewType}' representation for file {file}"
  | staleRevision file revision current =>
    s!"file {file} changed since {revision.text} (now {current.text})"
  | write reason => reason
  | broker e => e.message

end WorkspaceError

end EventHub
