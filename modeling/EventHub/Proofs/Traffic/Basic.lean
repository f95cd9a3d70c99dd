import EventHub.Proofs.Broker.Step

/-!
Traffic at one broker. Any number of tasks fire events, register services,
subscribe, list, give up and close, in any order; listeners and setups end when
and how they like, and whatever they do meanwhile is the traffic of other tickets.
A move that is not possible at the moment changes nothing, so that every sequence
of moves is an interleaving, and there are no others.

What a task does at the broker it does by the functions that the computations of the
simulation call; only who goes on next, and when a listener or a setup ends, is left
open.
-/

namespace EventHub

/-- What a task has begun, and how far it is. -/
inductive Activity (L : Type) where
  | firing (event : Event) (call : Call L)
  /-- The listener of the subscription runs. -/
  | delivering (dispatch : Dispatch L) (subscription : Subscription L)
  | fired (event : Event) (result : Except BrokerError Report)
  | registering (name : String) (stage : Registration L)
  | registered (name : String) (result : Except BrokerError Handle)
  | subscribing (service : Handle) (listener : Listener L) (call : Call L)
  | subscribed (service : Handle) (listener : Listener L)
      (result : Except BrokerError (Answer L))
  | listing (call : Call L)
  | listed (result : Except BrokerError (Answer L))
  /-- A slot that nobody decided is discarded by a task of its own. -/
  | discarding (id : ServiceId)
  | discarded (id : ServiceId)

structure Task (L : Type) where
  activity : Activity L
  isGivenUp : Bool := false

/-- What happened on behalf of a dispatch. -/
inductive Delivery (L : Type) where
  | called (subscription : Subscription L) (event : Event)
  /-- The listener is written for another kind of event. -/
  | refused (subscription : Subscription L) (error : ListenerError)
  | ended (subscription : Subscription L) (verdict : Verdict)

structure Traffic (L : Type) where
  broker : Broker L
  tasks : Ticket → Option (Task L) := fun _ => none
  /-- Slots that nobody decides any more. -/
  orphans : List ServiceId := []
  /-- What the registry took, in order. -/
  served : List (Served L) := []
  log : List (Ticket × Delivery L) := []

/-- What a task can begin with. -/
inductive Start (L : Type) where
  | fire (event : Event)
  | register (name : String)
  | subscribe (service : Handle) (listener : Listener L)
  | list
  | discard (id : ServiceId)

/-- What a task can do, or what can happen to it. -/
inductive Turn (L : Type) where
  | begin (start : Start L)
  | goOn
  | listenerEnded (verdict : Verdict)
  | setUpEnded (outcome : Outcome (Except ServiceError Unit))
  | giveUp

inductive Move (L : Type) where
  | task (t : Ticket) (turn : Turn L)
  /-- The registry takes a step. -/
  | work
  | close

namespace Traffic

variable {L : Type}

/-- A task has acted on the broker and is somewhere else now. -/
def put (x : Traffic L) (t : Ticket) (broker : Broker L) (activity : Activity L) : Traffic L :=
  { x with
    broker := broker.flushed
    tasks := Function.update x.tasks t (some { activity }) }

/-- A task was given up where it was. -/
def leave (x : Traffic L) (t : Ticket) (broker : Broker L) (activity : Activity L) : Traffic L :=
  { x with
    broker := broker.flushed
    tasks := Function.update x.tasks t (some { activity, isGivenUp := true }) }

def note (x : Traffic L) (t : Ticket) (d : Delivery L) : Traffic L :=
  { x with log := x.log ++ [(t, d)] }

def orphaned (x : Traffic L) (orphan : Option ServiceId) : Traffic L :=
  { x with orphans := x.orphans ++ orphan.toList }

/-- A listener is called, unless it is written for another kind of event. -/
def delivery (s : Subscription L) (event : Event) : Delivery L :=
  match Dispatch.mismatch? s event with
  | none => .called s event
  | some e => .refused s e

/-- Goes on with a dispatch. -/
def dispatching (x : Traffic L) (t : Ticket) (event : Event) :
    Broker L × Dispatch.Next L → Traffic L
  | (b, .asking event call) => x.put t b (.firing event call)
  | (b, .deliver s rest) => (x.put t b (.delivering rest s)).note t (delivery s rest.event)
  | (b, .finished result) => x.put t b (.fired event result)

/-- Goes on with a registration. -/
def registering (x : Traffic L) (t : Ticket) (name : String) (r : Registration.Result L) :
    Traffic L :=
  let activity : Activity L :=
    match r.next with
    | .suspended stage => .registering name stage
    | .setUp owner handle => .registering name (.settingUp owner handle)
    | .finished result => .registered name result
  (x.put t r.broker activity).orphaned r.orphan

def subscribing (x : Traffic L) (t : Ticket) (service : Handle) (listener : Listener L) :
    Broker L × Called L → Traffic L
  | (b, .suspended call) => x.put t b (.subscribing service listener call)
  | (b, .finished result) => x.put t b (.subscribed service listener result)

def listing (x : Traffic L) (t : Ticket) : Broker L × Called L → Traffic L
  | (b, .suspended call) => x.put t b (.listing call)
  | (b, .finished result) => x.put t b (.listed result)

def posting (x : Traffic L) (t : Ticket) (id : ServiceId) :
    Mailbox (Envelope L) × Mailbox.Posted → Traffic L
  | (mailbox, .accepted) =>
    x.put t ({ x.broker with mailbox }.wake [x.broker.worker]) (.discarded id)
  | (mailbox, .waits) => x.put t { x.broker with mailbox } (.discarding id)
  | (mailbox, .refused) => x.put t { x.broker with mailbox } (.discarded id)

def start (x : Traffic L) (t : Ticket) : Start L → Traffic L
  | .fire event => x.dispatching t event (Dispatch.start x.broker t event)
  | .register name => x.registering t name (Registration.start x.broker t name)
  | .subscribe service listener =>
    x.subscribing t service listener (x.broker.call t (.subscribe service listener))
  | .list => x.listing t (x.broker.call t .services)
  | .discard id =>
    if id ∈ x.orphans then x.put t x.broker (.discarding id) else x

/-- A suspended task goes on as far as it can. -/
def goOn (x : Traffic L) (t : Ticket) : Activity L → Traffic L
  | .firing event call => x.dispatching t event (Dispatch.resume x.broker event call)
  | .registering name stage => x.registering t name (Registration.resume x.broker stage)
  | .subscribing service listener call =>
    x.subscribing t service listener (x.broker.resume call)
  | .listing call => x.listing t (x.broker.resume call)
  | .discarding id => x.posting t id (x.broker.mailbox.send t ⟨.discard id, none⟩)
  | _ => x

/-- A listener that refused the event was not called, and its refusal counts. -/
def listenerEnded (x : Traffic L) (t : Ticket) (verdict : Verdict) : Activity L → Traffic L
  | .delivering d s =>
    let verdict :=
      match Dispatch.mismatch? s d.event with
      | none => verdict
      | some e => .returned (.error e)
    (x.note t (.ended s verdict)).dispatching t d.event (Dispatch.ended x.broker d s verdict)
  | _ => x

def setUpEnded (x : Traffic L) (t : Ticket) (outcome : Outcome (Except ServiceError Unit)) :
    Activity L → Traffic L
  | .registering name (.settingUp owner handle) =>
    x.registering t name (Registration.setUpEnded x.broker owner handle outcome)
  | _ => x

/-- What nobody waits for any more is given up, and so is a registration that breaks off with its
service. What posts a discard has no owner who could give it up. -/
def giveUp (x : Traffic L) (t : Ticket) : Activity L → Traffic L
  | .firing event call => x.leave t (x.broker.giveUp call) (.firing event call)
  | .delivering d s => x.leave t x.broker (.delivering d s)
  | .registering name stage =>
    (x.leave t (Registration.giveUp x.broker stage).1 (.registering name stage)).orphaned
      (Registration.giveUp x.broker stage).2
  | .subscribing service listener call =>
    x.leave t (x.broker.giveUp call) (.subscribing service listener call)
  | .listing call => x.leave t (x.broker.giveUp call) (.listing call)
  | _ => x

/-- The turn of a task that has begun. -/
def act (x : Traffic L) (t : Ticket) (activity : Activity L) : Turn L → Traffic L
  | .begin _ => x
  | .goOn => x.goOn t activity
  | .listenerEnded verdict => x.listenerEnded t verdict activity
  | .setUpEnded outcome => x.setUpEnded t outcome activity
  | .giveUp => x.giveUp t activity

/-- Only a new ticket can begin, and nothing happens to a task that was given
up. -/
def turn (x : Traffic L) (t : Ticket) (turn : Turn L) : Traffic L :=
  match x.tasks t, turn with
  | none, .begin start => x.start t start
  | none, _ => x
  | some ⟨activity, false⟩, turn => x.act t activity turn
  | some ⟨_, true⟩, _ => x

theorem turn_none {x : Traffic L} {t : Ticket} (h : x.tasks t = none) (start : Start L) :
    x.turn t (.begin start) = x.start t start := by
  simp only [Traffic.turn, h]

theorem turn_some {x : Traffic L} {t : Ticket} {a : Activity L} (h : x.tasks t = some ⟨a, false⟩)
    (turn : Turn L) : x.turn t turn = x.act t a turn := by
  simp only [Traffic.turn, h]

def step (x : Traffic L) : Move L → Traffic L
  | .task t turn => x.turn t turn
  | .work =>
    { x with broker := x.broker.step.flushed, served := x.served ++ x.broker.serving }
  | .close => { x with broker := x.broker.close.flushed }

/-- A new broker, after these moves. -/
def run (config : Config) (worker : Ticket) (moves : List (Move L)) : Traffic L :=
  moves.foldl step { broker := Broker.new config worker }

theorem run_append (config : Config) (worker : Ticket) (first second : List (Move L)) :
    run config worker (first ++ second) = second.foldl step (run config worker first) :=
  List.foldl_append

theorem run_concat (config : Config) (worker : Ticket) (moves : List (Move L)) (m : Move L) :
    run config worker (moves ++ [m]) = (run config worker moves).step m := by
  rw [run_append]
  rfl

/-- What happened on behalf of one task. -/
def deliveries (x : Traffic L) (t : Ticket) : List (Delivery L) :=
  (x.log.filter (·.1 = t)).map Prod.snd

theorem deliveries_note (x : Traffic L) (t : Ticket) (d : Delivery L) :
    (x.note t d).deliveries t = x.deliveries t ++ [d] := by
  simp [note, deliveries]

theorem deliveries_note_other (x : Traffic L) {t u : Ticket} (h : t ≠ u) (d : Delivery L) :
    (x.note u d).deliveries t = x.deliveries t := by
  have h' : u ≠ t := fun heq => h heq.symm
  simp [note, deliveries, h']

@[simp] theorem put_deliveries (x : Traffic L) (t u : Ticket) (b : Broker L) (a : Activity L) :
    (x.put t b a).deliveries u = x.deliveries u := rfl

@[simp] theorem leave_tasks (x : Traffic L) (t : Ticket) (b : Broker L) (a : Activity L) :
    (x.leave t b a).tasks t = some { activity := a, isGivenUp := true } := by
  simp [leave]

@[simp] theorem put_tasks (x : Traffic L) (t : Ticket) (b : Broker L) (a : Activity L) :
    (x.put t b a).tasks t = some { activity := a } := by
  simp [put]

end Traffic

end EventHub
