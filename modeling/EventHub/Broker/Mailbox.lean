import EventHub.Outbox

/-!
A bounded queue between many senders and one receiver. A sender that finds no
room waits in line; a slot that becomes free belongs at once to the sender at
the head of the line, who fills it when it goes on.
-/

namespace EventHub

structure Mailbox (α : Type) where
  capacity : Nat
  /-- Accepted messages, oldest first. -/
  queue : List α := []
  /-- Senders that own a free slot but have not filled it yet. -/
  granted : List Ticket := []
  /-- Senders without a slot, oldest first. -/
  waiting : List Ticket := []
  isOpen : Bool := true

namespace Mailbox

variable {α : Type}

/-- Slots neither filled nor owned by a sender. -/
def free (m : Mailbox α) : Nat := m.capacity - (m.queue.length + m.granted.length)

inductive Posted where
  | accepted
  | waits
  | refused
  deriving DecidableEq, Repr

/-- A sender puts its message in: into the slot that it owns or, if it stands in
no line, into a free one. Without room it waits in line. -/
def send (m : Mailbox α) (sender : Ticket) (a : α) : Mailbox α × Posted :=
  if !m.isOpen then (m, .refused)
  else if sender ∈ m.granted then
    ({ m with queue := m.queue ++ [a], granted := m.granted.erase sender }, .accepted)
  else if sender ∈ m.waiting then (m, .waits)
  else if 0 < m.free then ({ m with queue := m.queue ++ [a] }, .accepted)
  else ({ m with waiting := m.waiting ++ [sender] }, .waits)

/-- Puts a message in if there is room now. -/
def offer (m : Mailbox α) (a : α) : Mailbox α × Posted :=
  if !m.isOpen then (m, .refused)
  else if 0 < m.free then ({ m with queue := m.queue ++ [a] }, .accepted)
  else (m, .waits)

/-- Gives a slot that became free to the head of the line. -/
def handOn (m : Mailbox α) : Mailbox α × List Ticket :=
  match m.waiting with
  | [] => (m, [])
  | t :: rest => ({ m with waiting := rest, granted := m.granted ++ [t] }, [t])

/-- Takes the oldest message; the tickets are those of senders that now own a
slot. -/
def receive (m : Mailbox α) : Option (α × Mailbox α × List Ticket) :=
  match m.queue with
  | [] => none
  | a :: rest =>
    let (m', woken) := handOn { m with queue := rest }
    some (a, m', woken)

/-- A sender leaves the line; a slot it owned goes to the next one. -/
def leave (m : Mailbox α) (sender : Ticket) : Mailbox α × List Ticket :=
  if sender ∈ m.granted then handOn { m with granted := m.granted.erase sender }
  else ({ m with waiting := m.waiting.erase sender }, [])

/-- Closes the queue: messages in it are dropped, senders in line go on and are
refused. -/
def close (m : Mailbox α) : Mailbox α × List α × List Ticket :=
  ({ m with queue := [], granted := [], waiting := [], isOpen := false }, m.queue, m.waiting)

end Mailbox

end EventHub
