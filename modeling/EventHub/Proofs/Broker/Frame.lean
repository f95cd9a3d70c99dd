import EventHub.Broker.Dispatch
import EventHub.Broker.Registration
import EventHub.Proofs.Lookup

/-!
What an action leaves alone. Whatever a task does at a broker, the books stay as
they are until the registry takes the command, and what is under way for the
calls of other tasks stays as it is.
-/

namespace EventHub

namespace Mailbox

variable {α : Type}

theorem queue_send (m : Mailbox α) (sender : Ticket) (a : α) :
    (m.send sender a).1.queue =
      m.queue ++ if (m.send sender a).2 = .accepted then [a] else [] := by
  simp only [send]
  split <;> [skip; split <;> [skip; split <;> [skip; split]]] <;> simp

theorem queue_offer (m : Mailbox α) (a : α) :
    (m.offer a).1.queue = m.queue ++ if (m.offer a).2 = .accepted then [a] else [] := by
  simp only [offer]
  split <;> [skip; split] <;> simp

@[simp] theorem queue_handOn (m : Mailbox α) : m.handOn.1.queue = m.queue := by
  simp only [handOn]
  split <;> rfl

@[simp] theorem queue_leave (m : Mailbox α) (sender : Ticket) :
    (m.leave sender).1.queue = m.queue := by
  simp only [leave]
  split <;> simp

end Mailbox

/-- Whose call it is. -/
def Call.ticket {L : Type} : Call L → Ticket
  | .sending t _ => t
  | .awaiting t => t

/-- Whose registration it is. -/
def Registration.ticket {L : Type} : Registration L → Ticket
  | .reserving _ call => call.ticket
  | .settingUp t _ => t
  | .discarding t _ _ => t
  | .confirming _ call => call.ticket

namespace Broker

variable {L : Type}

/-- The broker once what it had to tell was told. -/
def flushed (b : Broker L) : Broker L := { b with outbox := {} }

/-- The commands in the mailbox that a call wants the answer to. -/
def enqueued (b : Broker L) (t : Ticket) : List (Envelope L) :=
  b.mailbox.queue.filter (·.caller = some t)

theorem lookup_setReply (b : Broker L) (t other : Ticket) (reply : Reply L) :
    (b.setReply t reply).replies.lookup other =
      if other = t then (b.replies.lookup t).map fun _ => reply else b.replies.lookup other := by
  have hmap : (b.setReply t reply).replies =
      b.replies.map fun entry => if entry.1 = t then (entry.1, reply) else entry := by
    apply List.map_congr_left
    intro entry _
    by_cases h : entry.1 = t <;> simp [h]
  rw [hmap, Lookup.lookup_map_at b.replies t other fun _ => reply]
  by_cases h : other = t <;> simp [h]

/-- The books are the same, and so is all that is under way for one call; and what
was closed is not opened again. -/
structure Spares (t : Ticket) (b b' : Broker L) : Prop where
  registry : b'.registry = b.registry
  hasStopped : b'.hasStopped = b.hasStopped
  reply : b'.replies.lookup t = b.replies.lookup t
  enqueued : b'.enqueued t = b.enqueued t
  /-- A closed broker stays closed. -/
  isClosed : b.isClosed = true → b'.isClosed = true

namespace Spares

variable {t u : Ticket} {b b' b'' : Broker L}

theorem refl (t : Ticket) (b : Broker L) : Spares t b b := ⟨rfl, rfl, rfl, rfl, id⟩

theorem trans (h : Spares t b b') (h' : Spares t b' b'') : Spares t b b'' where
  registry := h'.registry.trans h.registry
  hasStopped := h'.hasStopped.trans h.hasStopped
  reply := h'.reply.trans h.reply
  enqueued := h'.enqueued.trans h.enqueued
  isClosed hclosed := h'.isClosed (h.isClosed hclosed)

theorem wake (b : Broker L) (ts : List Ticket) : Spares t b (b.wake ts) := ⟨rfl, rfl, rfl, rfl, id⟩

theorem flush (b : Broker L) : Spares t b b.flushed := ⟨rfl, rfl, rfl, rfl, id⟩

theorem note (b : Broker L) (level : Level) (message : String) (fields : List (String × String)) :
    Spares t b (b.note level message fields) := ⟨rfl, rfl, rfl, rfl, id⟩

theorem close (b : Broker L) : Spares t b b.close := by
  rw [Broker.close]
  split
  · exact refl t b
  · exact ⟨rfl, rfl, rfl, rfl, fun _ => rfl⟩

theorem setReply (b : Broker L) (h : t ≠ u) (reply : Reply L) :
    Spares t b (b.setReply u reply) where
  registry := rfl
  hasStopped := rfl
  reply := by rw [lookup_setReply, if_neg h]
  enqueued := rfl
  isClosed := id

theorem await (b : Broker L) (h : t ≠ u) : Spares t b (b.await u) where
  registry := rfl
  hasStopped := rfl
  reply := by
    have hb : (t == u) = false := by simpa using h
    simp [Broker.await, List.lookup_append, List.lookup_cons, hb]
  enqueued := rfl
  isClosed := id

theorem forget (b : Broker L) (h : t ≠ u) :
    Spares t b { b with replies := b.replies.filter (·.1 ≠ u) } where
  registry := rfl
  hasStopped := rfl
  reply := by
    rw [Lookup.lookup_filter_ne, if_neg h]
  enqueued := rfl
  isClosed := id

/-- What is put into the mailbox for somebody else. -/
theorem mailbox {mailbox : Mailbox (Envelope L)} {added : List (Envelope L)}
    (hqueue : mailbox.queue = b.mailbox.queue ++ added) (hadded : ∀ e ∈ added, e.caller ≠ some t) :
    Spares t b { b with mailbox } where
  registry := rfl
  hasStopped := rfl
  reply := rfl
  enqueued := by
    have hnone : added.filter (·.caller = some t) = [] := by
      simpa [List.filter_eq_nil_iff] using hadded
    simp [Broker.enqueued, hqueue, List.filter_append, hnone]
  isClosed := id

theorem send (b : Broker L) (sender : Ticket) {e : Envelope L} (h : e.caller ≠ some t) :
    Spares t b { b with mailbox := (b.mailbox.send sender e).1 } := by
  apply mailbox (b.mailbox.queue_send sender e)
  intro e' hmem
  split at hmem
  · rw [List.mem_singleton.mp hmem]
    exact h
  · cases hmem

theorem offer (b : Broker L) {e : Envelope L} (h : e.caller ≠ some t) :
    Spares t b { b with mailbox := (b.mailbox.offer e).1 } := by
  apply mailbox (b.mailbox.queue_offer e)
  intro e' hmem
  split at hmem
  · rw [List.mem_singleton.mp hmem]
    exact h
  · cases hmem

theorem leave (b : Broker L) (sender : Ticket) :
    Spares t b { b with mailbox := (b.mailbox.leave sender).1 } := by
  have hqueue : (b.mailbox.leave sender).1.queue = b.mailbox.queue ++ [] := by simp
  exact mailbox hqueue (by simp)

theorem listen (b : Broker L) (h : t ≠ u) : Spares t b (b.listen u) := by
  rw [Broker.listen]
  split
  · exact setReply b h .awaited
  · exact refl t b

theorem call (b : Broker L) (u : Ticket) (c : Command L) : Spares t b (b.call u c).1 := by
  rw [Broker.call]
  split <;> exact refl t b

theorem settlePost (b : Broker L) (h : t ≠ u) (c : Command L) (posted : Mailbox.Posted) :
    Spares t b (b.settlePost u c posted).1 := by
  cases posted with
  | accepted => exact (await b h).trans (wake _ _)
  | waits => exact refl t b
  | refused => exact refl t b

theorem resume (b : Broker L) {call : Call L} (h : t ≠ call.ticket) :
    Spares t b (b.resume call).1 := by
  cases call with
  | sending u c =>
      have hcaller : (⟨c, some u⟩ : Envelope L).caller ≠ some t := fun heq =>
        h (Option.some.inj heq).symm
      exact (send b u hcaller).trans (settlePost _ h c _)
  | awaiting u =>
      simp only [Broker.resume]
      split
      · exact listen b h
      · exact refl t b
      · exact forget b h
      · exact forget b h

theorem giveUp (b : Broker L) {call : Call L} (h : t ≠ call.ticket) :
    Spares t b (b.giveUp call) := by
  cases call with
  | sending u c => exact (leave b u).trans (wake _ _)
  | awaiting u => exact forget b h

end Spares

end Broker

namespace Dispatch

variable {L : Type} {t : Ticket}

theorem spares_advance (b : Broker L) (d : Dispatch L) : Broker.Spares t b (advance b d).1 := by
  rw [advance]
  split
  · exact .refl t b
  · exact .note b _ _ _

theorem spares_asked (event : Event) (p : Broker L × Called L) :
    Broker.Spares t p.1 (asked event p).1 := by
  rw [asked.eq_def]
  split
  · exact .refl t _
  · exact spares_advance _ _
  · exact .refl t _
  · exact .refl t _

theorem spares_start (b : Broker L) (u : Ticket) (event : Event) :
    Broker.Spares t b (start b u event).1 :=
  (Broker.Spares.call b u _).trans (spares_asked event _)

theorem spares_resume (b : Broker L) (event : Event) {call : Call L} (h : t ≠ call.ticket) :
    Broker.Spares t b (resume b event call).1 :=
  (Broker.Spares.resume b h).trans (spares_asked event _)

theorem spares_settle (b : Broker L) (d : Dispatch L) (s : Subscription L) (verdict : Verdict) :
    Broker.Spares t b (settle b d s verdict).1 := by
  rw [settle]
  split
  · exact .refl t b
  · exact .note b _ _ _

theorem spares_ended (b : Broker L) (d : Dispatch L) (s : Subscription L) (verdict : Verdict) :
    Broker.Spares t b (ended b d s verdict).1 :=
  (spares_settle b d s verdict).trans (spares_advance _ _)

end Dispatch

namespace Registration

variable {L : Type} {t : Ticket}

theorem spares_abandonSlot (b : Broker L) (handle : Handle) :
    Broker.Spares t b (abandonSlot b handle).1 := by
  have hcaller : (⟨.discard handle.id, none⟩ : Envelope L).caller ≠ some t := by simp
  simp only [abandonSlot]
  split
  · exact (Broker.Spares.note b _ _ _).trans ((Broker.Spares.offer _ hcaller).trans (.wake _ _))
  · exact .note b _ _ _
  · exact .note b _ _ _

theorem spares_reserved (name : String) (u : Ticket) (p : Broker L × Called L) :
    Broker.Spares t p.1 (reserved name u p).broker := by
  rw [reserved.eq_def]
  split <;> exact .refl t _

theorem spares_confirmed (handle : Handle) (p : Broker L × Called L) :
    Broker.Spares t p.1 (confirmed handle p).broker := by
  rw [confirmed.eq_def]
  split
  · exact .refl t _
  · exact .note _ _ _ _
  · exact spares_abandonSlot _ _
  · exact spares_abandonSlot _ _
  · exact spares_abandonSlot _ _

theorem spares_discarded (u : Ticket) (handle : Handle) (reason : String)
    (p : Broker L × Mailbox.Posted) :
    Broker.Spares t p.1 (discarded u handle reason p).broker := by
  rw [discarded.eq_def]
  split
  · exact .refl t _
  · exact .wake _ _
  · exact .refl t _

theorem spares_start (b : Broker L) (u : Ticket) (name : String) :
    Broker.Spares t b (start b u name).broker :=
  ((Broker.Spares.note b _ _ _).trans (.call _ u _)).trans (spares_reserved name u _)

theorem spares_setUpEnded (b : Broker L) (u : Ticket) (handle : Handle)
    (outcome : Outcome (Except ServiceError Unit)) :
    Broker.Spares t b (setUpEnded b u handle outcome).broker := by
  simp only [setUpEnded]
  split
  · exact (Broker.Spares.call b u _).trans (spares_confirmed handle _)
  · exact .note b _ _ _

theorem spares_resume (b : Broker L) {r : Registration L} (h : t ≠ r.ticket) :
    Broker.Spares t b (resume b r).broker := by
  cases r with
  | reserving name call =>
      cases call <;> exact (Broker.Spares.resume b h).trans (spares_reserved name _ _)
  | settingUp u handle => exact .refl t b
  | discarding u handle reason =>
      have hcaller : (⟨.discard handle.id, none⟩ : Envelope L).caller ≠ some t := by simp
      let posted := b.mailbox.send u ⟨.discard handle.id, none⟩
      exact (Broker.Spares.send b u hcaller).trans
        (spares_discarded u handle reason ({ b with mailbox := posted.1 }, posted.2))
  | confirming handle call =>
      exact (Broker.Spares.resume b h).trans (spares_confirmed handle _)

theorem spares_giveUp (b : Broker L) {r : Registration L} (h : t ≠ r.ticket) :
    Broker.Spares t b (giveUp b r).1 := by
  cases r with
  | reserving name call => exact .giveUp b h
  | settingUp u handle => exact spares_abandonSlot b handle
  | discarding u handle reason =>
      exact ((Broker.Spares.leave b u).trans (.wake _ _)).trans (spares_abandonSlot _ handle)
  | confirming handle call => exact (Broker.Spares.giveUp b h).trans (spares_abandonSlot _ handle)

end Registration

end EventHub
