import EventHub.Duration

/-!
Settings shared by the broker, the worker pool and the shutdown sequence. A
zero deadline or limit means that there is none.
-/

namespace EventHub

structure Config where
  /-- How long a shutdown waits for background jobs. -/
  grace : Duration := Duration.ofParts 30 0
  /-- Deadline of one listener call. -/
  listenerTimeout : Duration := Duration.zero
  /-- Room for commands waiting at the registry. -/
  mailboxCapacity : Nat := 256
  /-- How many background jobs run at once. -/
  maxConcurrentJobs : Nat := 0
  /-- Deadline of one background job. -/
  jobTimeout : Duration := Duration.zero
  deriving DecidableEq, Inhabited

namespace Config

def listenerDeadline (c : Config) : Option Duration := c.listenerTimeout.limit?

def jobDeadline (c : Config) : Option Duration := c.jobTimeout.limit?

def concurrencyLimit (c : Config) : Option Nat :=
  if c.maxConcurrentJobs = 0 then none else some c.maxConcurrentJobs

/-- A mailbox holds at least one command. -/
def mailboxRoom (c : Config) : Nat := max c.mailboxCapacity 1

end Config

end EventHub
