import EventHub.Broker.Mailbox
import EventHub.Broker.Registry
import EventHub.Config
import EventHub.Limits

/-!
A broker: the registry behind its mailbox, and the replies that are on their
way back. A call posts one command and waits for one answer. Closing the
broker makes the registry stop before its next command; what is still in the
mailbox is dropped, and whoever waits for an answer to it is told so.
-/

namespace EventHub

/-- A command on its way, with the call that wants the answer. -/
structure Envelope (L : Type) where
  command : Command L
  caller : Option Ticket

/-- Where the answer to an accepted command stands. -/
inductive Reply (L : Type) where
  /-- The caller has not begun to listen for the answer. -/
  | posted
  | awaited
  | given (answer : Answer L)
  | lost

structure Broker (L : Type) where
  listenerDeadline : Option Duration
  registry : Registry L := {}
  mailbox : Mailbox (Envelope L)
  /-- Calls whose command was accepted and which have not gone on yet. -/
  replies : List (Ticket × Reply L) := []
  /-- Where the registry itself waits for commands. -/
  worker : Ticket
  isClosed : Bool := false
  /-- The registry takes no further command. -/
  hasStopped : Bool := false
  outbox : Outbox := {}

/-- Where one call stands. -/
inductive Call (L : Type) where
  | sending (ticket : Ticket) (command : Command L)
  | awaiting (ticket : Ticket)

inductive Called (L : Type) where
  | suspended (call : Call L)
  | finished (result : Except BrokerError (Answer L))

namespace Broker

variable {L : Type}

def new (config : Config) (worker : Ticket) : Broker L :=
  { listenerDeadline := config.listenerDeadline
    mailbox := { capacity := config.mailboxRoom }
    worker }

/-- What breaks off the making of a broker: too large a mailbox. -/
def refusal? (config : Config) : Option Payload := Limits.permitExcess? config.mailboxRoom

def wake (b : Broker L) (ts : List Ticket) : Broker L :=
  { b with outbox := b.outbox.wakeAll ts }

def record (b : Broker L) (r : Record) : Broker L :=
  { b with outbox := b.outbox.write r }

def note (b : Broker L) (level : Level) (message : String) (fields : List (String × String)) :
    Broker L :=
  b.record { origin := .broker, level, message, fields }

/-- Stops taking commands. Closing again does nothing. -/
def close (b : Broker L) : Broker L :=
  if b.isClosed then b
  else
    (({ b with isClosed := true }).note .info "shutdown event broker" []).wake [b.worker]

def setReply (b : Broker L) (t : Ticket) (reply : Reply L) : Broker L :=
  { b with replies := b.replies.map fun entry => if entry.1 = t then (t, reply) else entry }

/-- Whether somebody still waits for the answer. -/
def isAwaited (b : Broker L) (caller : Option Ticket) : Bool :=
  match caller with
  | none => false
  | some t =>
    match b.replies.lookup t with
    | some .posted => true
    | some .awaited => true
    | _ => false

/-- Hands an answer to a caller that still waits for it; one that listens goes
on. -/
def answer (b : Broker L) (caller : Option Ticket) (reply : Reply L) : Broker L :=
  match caller with
  | none => b
  | some t =>
    match b.replies.lookup t with
    | some .posted => b.setReply t reply
    | some .awaited => (b.setReply t reply).wake [t]
    | _ => b

/-- The registry applies one command. -/
def serve (b : Broker L) (e : Envelope L) : Broker L :=
  let waits := b.isAwaited e.caller
  let records := b.registry.recordsOf e.command waits
  let (registry, result) := b.registry.serve e.command waits
  let b := records.foldl record { b with registry }
  match result with
  | none => b
  | some a => b.answer e.caller (.given a)

/-- The registry stops: every command still in the mailbox is dropped. -/
def stop (b : Broker L) : Broker L :=
  let record : Record :=
    { origin := .registry, level := .debug, message := "registry worker stopped"
      fields := [("services", toString b.registry.services.length)] }
  let (mailbox, dropped, woken) := b.mailbox.close
  let b := (({ b with mailbox, hasStopped := true }).record record).wake woken
  dropped.foldl (fun b e => b.answer e.caller .lost) b

/-- One step of the registry: stop if the broker was closed, else take the next
command. -/
def step (b : Broker L) : Broker L :=
  if b.hasStopped then b
  else if b.isClosed then b.stop
  else
    match b.mailbox.receive with
    | none => b
    | some (e, mailbox, woken) => ({ b with mailbox }.wake woken).serve e

/-- The registry works until it has nothing left to do, or has taken as many
commands as it may at once. -/
def work (b : Broker L) (most : Nat) : Broker L :=
  (min most (b.mailbox.queue.length + 1)).repeat step b

/-- Registers the wish for an answer, once the command is accepted. -/
def await (b : Broker L) (t : Ticket) : Broker L :=
  { b with replies := b.replies ++ [(t, .posted)] }

/-- The caller listens for the answer from now on. -/
def listen (b : Broker L) (t : Ticket) : Broker L :=
  match b.replies.lookup t with
  | some .posted => b.setReply t .awaited
  | _ => b

/-- Puts an accepted command on the caller's account and wakes the registry. -/
def settlePost (b : Broker L) (t : Ticket) (c : Command L) (posted : Mailbox.Posted) :
    Broker L × Called L :=
  match posted with
  | .accepted => ((b.await t).wake [b.worker], .suspended (.awaiting t))
  | .waits => (b, .suspended (.sending t c))
  | .refused => (b, .finished (.error .closed))

/-- Starts a call; a closed broker refuses it. The command is posted when the
call goes on. -/
def call (b : Broker L) (t : Ticket) (c : Command L) : Broker L × Called L :=
  if b.isClosed then (b, .finished (.error .closed))
  else (b, .suspended (.sending t c))

/-- A suspended call goes on as far as it can. -/
def resume (b : Broker L) : Call L → Broker L × Called L
  | .sending t c =>
    let (mailbox, posted) := b.mailbox.send t ⟨c, some t⟩
    settlePost { b with mailbox } t c posted
  | .awaiting t =>
    match b.replies.lookup t with
    | some .posted => (b.listen t, .suspended (.awaiting t))
    | some .awaited => (b, .suspended (.awaiting t))
    | some (.given a) => ({ b with replies := b.replies.filter (·.1 ≠ t) }, .finished (.ok a))
    | _ => ({ b with replies := b.replies.filter (·.1 ≠ t) }, .finished (.error .closed))

/-- A call is given up. An accepted command is still carried out. -/
def giveUp (b : Broker L) : Call L → Broker L
  | .sending t _ =>
    let (mailbox, woken) := b.mailbox.leave t
    { b with mailbox }.wake woken
  | .awaiting t => { b with replies := b.replies.filter (·.1 ≠ t) }

end Broker

end EventHub
