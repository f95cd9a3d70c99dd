import EventHub.Workspace.Error

/-! The ways in which a view cannot be produced. -/

namespace EventHub

inductive ViewError where
  | unknownGenerator (viewType : String)
  | job (error : JobError)
  | workspace (error : WorkspaceError)
  deriving DecidableEq, Inhabited

namespace ViewError

def label : ViewError → String
  | unknownGenerator _ => "view_unknown_generator"
  | job e => e.label
  | workspace e => e.label

def message : ViewError → String
  | unknownGenerator viewType => s!"view generator '{viewType}' does not exist"
  | job e => s!"view generation failed: {e.message}"
  | workspace e => e.message

end ViewError

end EventHub
