import EventHub.Error
import EventHub.Workspace.Entry
import EventHub.Mapper.Types
import EventHub.Record

/-!
Mapping factories look at every file that is added. Those that want it get a
background job each; they are asked in the order of their registration.
-/

namespace EventHub

/-- A factory of mappings: whether it wants a file, and how it maps one. -/
structure Mapper.Factory (P : Type) where
  name : String
  wants : Entry → Bytes → Outcome Bool
  plugin : P

structure Mapper (P : Type) where
  factories : List (Mapper.Factory P) := []
  types : MappingTypes := {}

namespace Mapper

variable {P : Type}

def note (level : Level) (message : String) (fields : List (String × String)) : Record :=
  { origin := .mapper, level, message, fields }

def addFactory (m : Mapper P) (f : Mapper.Factory P) : Mapper P :=
  { m with factories := m.factories ++ [f] }

/-- The factories that get a job for a file, and what stopped the round if one
of them broke off while it was asked. -/
def scheduled (file : Entry) (content : Bytes) :
    List (Mapper.Factory P) → List (Mapper.Factory P) × Option Payload
  | [] => ([], none)
  | f :: rest =>
    match f.wants file content with
    | .panicked payload => ([], some payload)
    | .returned wanted =>
      let (more, stopped) := scheduled file content rest
      (if wanted then f :: more else more, stopped)

def jobName (f : Mapper.Factory P) (file : Entry) : String :=
  s!"mapping:{f.name}:{file.name}"

def scheduleRecord (f : Mapper.Factory P) (file : Entry) : Record :=
  note .debug "generating mappings" [("factory", f.name), ("file", file.name)]

end Mapper

end EventHub
