import EventHub.Broker.Basic

/-!
Registering a service: reserve a slot, let the service set itself up, then
confirm the slot or discard it. From the moment the slot is known until the
decision, giving up the registration discards the slot too.
-/

namespace EventHub

/-- Where a registration stands. -/
inductive Registration (L : Type) where
  | reserving (name : String) (call : Call L)
  /-- The service's own code runs. -/
  | settingUp (ticket : Ticket) (handle : Handle)
  /-- The setup failed; waiting for room to post the discard. -/
  | discarding (ticket : Ticket) (handle : Handle) (reason : String)
  | confirming (handle : Handle) (call : Call L)

namespace Registration

variable {L : Type}

/-- What happens next in a registration. -/
inductive Next (L : Type) where
  | suspended (registration : Registration L)
  | setUp (ticket : Ticket) (handle : Handle)
  | finished (result : Except BrokerError Handle)

/-- The text that a failed setup is reported with. -/
def failure? : Outcome (Except ServiceError Unit) → Option String
  | .returned (.ok ()) => none
  | .returned (.error e) => some e.message
  | .panicked payload => some s!"panicked: {payload.message}"

/-- The undecided slot is given up with the registration. If there is no room
to post that now, the id is returned for a sender of its own to post. -/
def abandonSlot (b : Broker L) (handle : Handle) : Broker L × Option ServiceId :=
  let b := b.note .warn "registration abandoned before admission; discarding"
    [("service", handle.text)]
  let (mailbox, posted) := b.mailbox.offer ⟨.discard handle.id, none⟩
  match posted with
  | .accepted => ({ b with mailbox }.wake [b.worker], none)
  | .refused => (b, none)
  | .waits => (b, some handle.id)

/-- A broker, what is next, and a slot that still has to be discarded. -/
structure Result (L : Type) where
  broker : Broker L
  next : Next L
  orphan : Option ServiceId := none

def reserved (name : String) (t : Ticket) : Broker L × Called L → Result L
  | (b, .suspended call) => { broker := b, next := .suspended (.reserving name call) }
  | (b, .finished (.ok (.reserved handle))) => { broker := b, next := .setUp t handle }
  | (b, .finished (.ok _)) => { broker := b, next := .finished (.error .closed) }
  | (b, .finished (.error e)) => { broker := b, next := .finished (.error e) }

/-- The slot was still undecided when its confirmation failed. -/
def refused (b : Broker L) (handle : Handle) (e : BrokerError) : Result L :=
  let (b, orphan) := abandonSlot b handle
  { broker := b, next := .finished (.error e), orphan }

def confirmed (handle : Handle) : Broker L × Called L → Result L
  | (b, .suspended call) => { broker := b, next := .suspended (.confirming handle call) }
  | (b, .finished (.ok (.settled (.ok ())))) =>
    { broker := b.note .info "registered service" [("service", handle.text)]
      next := .finished (.ok handle) }
  | (b, .finished (.ok (.settled (.error e)))) => refused b handle e
  | (b, .finished (.ok _)) => refused b handle .closed
  | (b, .finished (.error e)) => refused b handle e

/-- A discard needs no answer: once it is posted, or the mailbox is gone, the
registration has failed. -/
def discarded (t : Ticket) (handle : Handle) (reason : String) :
    Broker L × Mailbox.Posted → Result L
  | (b, .waits) => { broker := b, next := .suspended (.discarding t handle reason) }
  | (b, .accepted) =>
    { broker := b.wake [b.worker]
      next := .finished (.error (.initializationFailed handle.name reason)) }
  | (b, .refused) =>
    { broker := b, next := .finished (.error (.initializationFailed handle.name reason)) }

def start (b : Broker L) (t : Ticket) (name : String) : Result L :=
  let b := b.note .debug "attempting to register service" [("service", name)]
  reserved name t (b.call t (.reserve name))

/-- The service's setup has ended. -/
def setUpEnded (b : Broker L) (t : Ticket) (handle : Handle)
    (outcome : Outcome (Except ServiceError Unit)) : Result L :=
  match failure? outcome with
  | none => confirmed handle (b.call t (.confirm handle.id handle.name))
  | some reason =>
    let b := b.note .error "service initialization failed"
      [("service", handle.text), ("reason", reason)]
    { broker := b, next := .suspended (.discarding t handle reason) }

/-- A suspended registration goes on as far as it can. -/
def resume (b : Broker L) : Registration L → Result L
  | .reserving name (.sending t c) => reserved name t (b.resume (.sending t c))
  | .reserving name (.awaiting t) => reserved name t (b.resume (.awaiting t))
  | .settingUp t handle => { broker := b, next := .setUp t handle }
  | .discarding t handle reason =>
    let (mailbox, posted) := b.mailbox.send t ⟨.discard handle.id, none⟩
    discarded t handle reason ({ b with mailbox }, posted)
  | .confirming handle call => confirmed handle (b.resume call)

/-- The caller gives the registration up. -/
def giveUp (b : Broker L) : Registration L → Broker L × Option ServiceId
  | .reserving _ call => (b.giveUp call, none)
  | .settingUp _ handle => abandonSlot b handle
  | .discarding t handle _ =>
    let (mailbox, woken) := b.mailbox.leave t
    abandonSlot ({ b with mailbox }.wake woken) handle
  | .confirming handle call => abandonSlot (b.giveUp call) handle

end Registration

end EventHub
