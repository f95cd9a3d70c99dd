import EventHub.Duration
import EventHub.Text.Quoted

/-!
The ways in which the broker, services, listeners, background jobs and the
shutdown sequence fail. Each has a short label for records and a message.
-/

namespace EventHub

inductive BrokerError where
  | closed
  | unknownService (service : String)
  | initializationFailed (service reason : String)
  deriving DecidableEq, Inhabited

namespace BrokerError

def label : BrokerError → String
  | closed => "broker_closed"
  | unknownService _ => "broker_unknown_service"
  | initializationFailed .. => "broker_initialization_failed"

def message : BrokerError → String
  | closed => "event broker is closed"
  | unknownService service => s!"service '{service}' is not registered at the broker"
  | initializationFailed service reason =>
    s!"initialization of service '{service}' failed: {reason}"

end BrokerError

/-- Why a service could not set itself up. -/
inductive ServiceError where
  | broker (error : BrokerError)
  | setup (reason : String)
  deriving DecidableEq, Inhabited

namespace ServiceError

def label : ServiceError → String
  | broker e => e.label
  | setup _ => "service_setup_failed"

def message : ServiceError → String
  | broker e => e.message
  | setup reason => s!"service setup failed: {reason}"

end ServiceError

/-- Why one listener did not take an event. -/
inductive ListenerError where
  | failed (reason : String)
  | panicked (info : String)
  | timeout (deadline : Duration)
  deriving DecidableEq, Inhabited

namespace ListenerError

def label : ListenerError → String
  | failed _ => "listener_failed"
  | panicked _ => "listener_panicked"
  | timeout _ => "listener_timeout"

def message : ListenerError → String
  | failed reason => s!"listener failed: {reason}"
  | panicked info => s!"listener panicked: {info}"
  | timeout deadline => s!"listener timed out after {deadline.text}"

end ListenerError

/-- Why a background job did not succeed. -/
inductive JobError where
  | timeout (deadline : Duration)
  | fail (reason : String)
  | panicked (info : String)
  | canceled
  deriving DecidableEq, Inhabited

namespace JobError

def label : JobError → String
  | timeout _ => "job_timeout"
  | fail _ => "job_failed"
  | panicked _ => "job_panicked"
  | canceled => "job_canceled"

def message : JobError → String
  | timeout deadline => s!"timed out after {deadline.text}"
  | fail reason => s!"execution failed: {reason}"
  | panicked info => s!"job panicked: {info}"
  | canceled => "context cancelled"

end JobError

/-- Why the application did not start or stop in order. -/
inductive RuntimeError where
  | graceExceeded (grace : Duration) (stuck : List String)
  | broker (error : BrokerError)
  | signal (reason : String)
  deriving DecidableEq, Inhabited

namespace RuntimeError

def label : RuntimeError → String
  | graceExceeded .. => "runtime_grace_exceeded"
  | broker _ => "runtime_broker"
  | signal _ => "runtime_signal"

def message : RuntimeError → String
  | graceExceeded grace stuck =>
    s!"shutdown timeout {grace.text} exceeded; stuck: {Text.quotedList stuck}"
  | broker e => e.message
  | signal reason => s!"failed to listen for shutdown signals: {reason}"

end RuntimeError

/-- What a piece of foreign code throws when it breaks off: a text, or a value
that is none. -/
inductive Payload where
  | literal (text : String)
  | owned (text : String)
  | other
  deriving DecidableEq, Inhabited

def Payload.message : Payload → String
  | literal text => text
  | owned text => text
  | other => "unknown panic"

/-- How a piece of code ends: with a value, or by breaking off. -/
inductive Outcome (α : Type) where
  | returned (value : α)
  | panicked (payload : Payload)

instance {α : Type} : Inhabited (Outcome α) := ⟨.panicked .other⟩

end EventHub
