/-!
Structured records that the parts of the system write while they work.
-/

namespace EventHub

inductive Level where
  | error
  | warn
  | info
  | debug
  | trace
  deriving DecidableEq, Repr, Inhabited

namespace Level

/-- Zero for the most severe. -/
def rank : Level → Nat
  | error => 0
  | warn => 1
  | info => 2
  | debug => 3
  | trace => 4

def name : Level → String
  | error => "ERROR"
  | warn => "WARN"
  | info => "INFO"
  | debug => "DEBUG"
  | trace => "TRACE"

def ofLabel? : String → Option Level
  | "error" => some error
  | "warn" => some warn
  | "info" => some info
  | "debug" => some debug
  | "trace" => some trace
  | _ => none

end Level

/-- The part of the system that writes a record. -/
inductive Origin where
  | broker
  | registry
  | pool
  | runtime
  | workspace
  | mapper
  | view
  | eventLog
  deriving DecidableEq, Repr, Inhabited

/-- The registry and the pool work beside their callers. -/
def Origin.isBackground : Origin → Bool
  | registry | pool => true
  | _ => false

structure Record where
  origin : Origin
  level : Level
  message : String
  fields : List (String × String) := []
  /-- Number of the job that the record is about. -/
  job : Option Nat := none
  deriving DecidableEq, Repr, Inhabited

end EventHub
