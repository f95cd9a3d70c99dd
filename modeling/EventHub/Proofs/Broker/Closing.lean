import EventHub.Proofs.Broker.Posting

/-!
Closing a broker. It stops the registry before its next command, and the registry empties
the mailbox then and closes it: whoever stands in line goes on and is refused, whoever
listens for an answer is told that there is none, and from then on nothing goes into the
mailbox or out of it.
-/

namespace EventHub

variable {L : Type}

namespace Mailbox

variable {α : Type} {m : Mailbox α}

/-- Closed, with nothing in it and nobody in line. -/
structure IsShut (m : Mailbox α) : Prop where
  isOpen : m.isOpen = false
  queue : m.queue = []
  granted : m.granted = []
  waiting : m.waiting = []

theorem isShut_close (m : Mailbox α) : m.close.1.IsShut := ⟨rfl, rfl, rfl, rfl⟩

theorem send_of_shut (h : m.isOpen = false) (sender : Ticket) (a : α) :
    m.send sender a = (m, .refused) := by
  simp [send, h]

theorem offer_of_shut (h : m.isOpen = false) (a : α) : m.offer a = (m, .refused) := by
  simp [offer, h]

theorem leave_of_shut (h : m.IsShut) (sender : Ticket) : m.leave sender = (m, []) := by
  obtain ⟨capacity, queue, granted, waiting, isOpen⟩ := m
  obtain rfl : granted = [] := h.granted
  obtain rfl : waiting = [] := h.waiting
  simp [leave]

/-- A sender for whom nothing changes stands in line. -/
theorem waiting_of_send {sender : Ticket} {a : α} (h : m.send sender a = (m, .waits)) :
    sender ∈ m.waiting := by
  simp only [send] at h
  split at h
  · cases congrArg Prod.snd h
  · split at h
    · cases congrArg Prod.snd h
    · split at h
      · assumption
      · split at h
        · cases congrArg Prod.snd h
        · have hwaiting : m.waiting ++ [sender] = m.waiting :=
            congrArg Mailbox.waiting (congrArg Prod.fst h)
          simp at hwaiting

end Mailbox

namespace Broker

variable {b b' b'' : Broker L}

/-- A mailbox that was shut is as it was. -/
def Keeps (b b' : Broker L) : Prop := b.mailbox.IsShut → b'.mailbox = b.mailbox

namespace Keeps

theorem of_eq (h : b'.mailbox = b.mailbox) : Keeps b b' := fun _ => h

theorem refl (b : Broker L) : Keeps b b := of_eq rfl

theorem trans (h : Keeps b b') (h' : Keeps b' b'') : Keeps b b'' := by
  intro hshut
  have hsame := h hshut
  exact (h' (hsame ▸ hshut)).trans hsame

theorem isShut (h : Keeps b b') (hshut : b.mailbox.IsShut) : b'.mailbox.IsShut :=
  h hshut ▸ hshut

theorem call (b : Broker L) (t : Ticket) (c : Command L) : Keeps b (b.call t c).1 := by
  rw [Broker.call]
  split <;> exact refl b

theorem send (b : Broker L) (sender : Ticket) (e : Envelope L) :
    Keeps b { b with mailbox := (b.mailbox.send sender e).1 } := by
  intro hshut
  rw [Mailbox.send_of_shut hshut.isOpen]

theorem leave (b : Broker L) (sender : Ticket) :
    Keeps b { b with mailbox := (b.mailbox.leave sender).1 } := by
  intro hshut
  rw [Mailbox.leave_of_shut hshut]

theorem resume (b : Broker L) (call : Call L) : Keeps b (b.resume call).1 := by
  cases call with
  | sending t c =>
      refine (send b t ⟨c, some t⟩).trans (of_eq ?_)
      simp only [Broker.resume]
      cases (b.mailbox.send t ⟨c, some t⟩).2 <;> rfl
  | awaiting t =>
      apply of_eq
      simp only [Broker.resume, Broker.listen]
      split
      · split <;> rfl
      · rfl
      · rfl
      · rfl

theorem giveUp (b : Broker L) (call : Call L) : Keeps b (b.giveUp call) := by
  cases call with
  | sending t c => exact (leave b t).trans (of_eq rfl)
  | awaiting t => exact of_eq rfl

end Keeps

end Broker

namespace Dispatch

open Broker (Keeps)

theorem keeps_advance (b : Broker L) (d : Dispatch L) : Keeps b (advance b d).1 := by
  rw [advance]
  split <;> exact .of_eq rfl

theorem keeps_asked (event : Event) (p : Broker L × Called L) : Keeps p.1 (asked event p).1 := by
  rw [asked.eq_def]
  split
  · exact .refl _
  · exact keeps_advance _ _
  · exact .refl _
  · exact .refl _

theorem keeps_ended (b : Broker L) (d : Dispatch L) (s : Subscription L) (verdict : Verdict) :
    Keeps b (ended b d s verdict).1 := by
  have hsettle : Keeps b (settle b d s verdict).1 := by
    rw [settle]
    split <;> exact .of_eq rfl
  exact hsettle.trans (keeps_advance _ _)

end Dispatch

namespace Registration

open Broker (Keeps)

theorem keeps_abandonSlot (b : Broker L) (handle : Handle) :
    Keeps b (abandonSlot b handle).1 := by
  intro hshut
  simp only [abandonSlot, Broker.note, Broker.record, Mailbox.offer_of_shut hshut.isOpen]

theorem keeps_reserved (name : String) (t : Ticket) (p : Broker L × Called L) :
    Keeps p.1 (reserved name t p).broker := by
  rw [reserved.eq_def]
  split <;> exact .refl _

theorem keeps_confirmed (handle : Handle) (p : Broker L × Called L) :
    Keeps p.1 (confirmed handle p).broker := by
  rw [confirmed.eq_def]
  split
  · exact .refl _
  · exact .of_eq rfl
  · exact keeps_abandonSlot _ _
  · exact keeps_abandonSlot _ _
  · exact keeps_abandonSlot _ _

theorem keeps_setUpEnded (b : Broker L) (t : Ticket) (handle : Handle)
    (outcome : Outcome (Except ServiceError Unit)) :
    Keeps b (setUpEnded b t handle outcome).broker := by
  simp only [setUpEnded]
  split
  · exact (Keeps.call b t _).trans (keeps_confirmed handle _)
  · exact .of_eq rfl

theorem keeps_resume (b : Broker L) (r : Registration L) : Keeps b (resume b r).broker := by
  cases r with
  | reserving name call =>
      cases call <;> exact (Keeps.resume b _).trans (keeps_reserved name _ _)
  | settingUp t handle => exact .refl b
  | discarding t handle reason =>
      intro hshut
      simp only [resume, Mailbox.send_of_shut hshut.isOpen, discarded]
  | confirming handle call => exact (Keeps.resume b call).trans (keeps_confirmed handle _)

theorem keeps_giveUp (b : Broker L) (r : Registration L) : Keeps b (giveUp b r).1 := by
  cases r with
  | reserving name call => exact .giveUp b call
  | settingUp t handle => exact keeps_abandonSlot b handle
  | discarding t handle reason =>
      have hleft : Keeps b (({ b with mailbox := (b.mailbox.leave t).1 } : Broker L).wake
          (b.mailbox.leave t).2) := (Keeps.leave b t).trans (.of_eq rfl)
      exact hleft.trans (keeps_abandonSlot _ handle)
  | confirming handle call => exact (Keeps.giveUp b call).trans (keeps_abandonSlot _ handle)

end Registration

namespace Broker

variable {b : Broker L} {served : List (Served L)} {t : Ticket} {c : Command L}
  {past : List (Request L)}

/-- What one call of `close` does, and what it leaves as it is. -/
structure Closing (b : Broker L) : Prop where
  isClosed : b.close.isClosed = true
  again : b.close.close = b.close
  registry : b.close.registry = b.registry
  mailbox : b.close.mailbox = b.mailbox
  replies : b.close.replies = b.replies
  /-- The registry goes on, to stop. -/
  wakes : b.isClosed = false → b.worker ∈ b.close.outbox.wakes

theorem close_of_closed (h : b.isClosed = true) : b.close = b := by
  rw [close, if_pos h]

theorem closing (b : Broker L) : b.Closing := by
  cases h : b.isClosed with
  | true =>
      have hsame := close_of_closed h
      refine ⟨?_, ?_, ?_, ?_, ?_, ?_⟩ <;> simp [hsame, h]
  | false =>
      have hclose : b.close =
          (({ b with isClosed := true }).note .info "shutdown event broker" []).wake
            [b.worker] := by
        simp [close, h]
      refine ⟨by rw [hclose]; rfl, ?_, by rw [hclose]; rfl, by rw [hclose]; rfl,
        by rw [hclose]; rfl, ?_⟩
      · apply close_of_closed
        rw [hclose]
        rfl
      · intro _
        simp [hclose, wake, note, record, Outbox.wakeAll, Outbox.write]

theorem hasStopped_answer (b : Broker L) (caller : Option Ticket) (reply : Reply L) :
    (b.answer caller reply).hasStopped = b.hasStopped := by
  cases caller with
  | none => rfl
  | some t =>
      simp only [answer]
      split <;> rfl

theorem hasStopped_stop (b : Broker L) : b.stop.hasStopped = true := by
  have hfold (dropped : List (Envelope L)) (b : Broker L) :
      (dropped.foldl (fun b e => b.answer e.caller .lost) b).hasStopped = b.hasStopped := by
    induction dropped generalizing b with
    | nil => rfl
    | cons e rest ih => exact (ih _).trans (hasStopped_answer _ _ _)
  exact hfold _ _

theorem hasStopped_serve (b : Broker L) (e : Envelope L) :
    (b.serve e).hasStopped = b.hasStopped := by
  have hrecorded (records : List Record) (b : Broker L) :
      (records.foldl record b).hasStopped = b.hasStopped := by
    induction records generalizing b with
    | nil => rfl
    | cons r rest ih => exact ih (b.record r)
  simp only [serve]
  split
  · exact hrecorded _ _
  · exact (hasStopped_answer _ _ _).trans (hrecorded _ _)

/-- Whoever was woken stays so while others are answered. -/
theorem wakes_answer (b : Broker L) (caller : Option Ticket) (reply : Reply L) :
    b.outbox.wakes ⊆ (b.answer caller reply).outbox.wakes := by
  cases caller with
  | none => exact List.Subset.refl _
  | some t =>
      simp only [answer]
      split
      · exact List.Subset.refl _
      · exact List.subset_append_left _ _
      · exact List.Subset.refl _

theorem wakes_foldl_answer (dropped : List (Envelope L)) (b : Broker L) :
    b.outbox.wakes ⊆ (dropped.foldl (fun b e => b.answer e.caller .lost) b).outbox.wakes := by
  induction dropped generalizing b with
  | nil => exact List.Subset.refl _
  | cons e rest ih => exact List.Subset.trans (wakes_answer b e.caller .lost) (ih _)

/-- Whoever listens for the answer to a command that is dropped is woken. -/
theorem mem_wakes_foldl_answer {dropped : List (Envelope L)} {b : Broker L} {t : Ticket}
    (hreply : b.replies.lookup t = some .awaited)
    (hdropped : dropped.filter (·.caller = some t) ≠ []) :
    t ∈ (dropped.foldl (fun b e => b.answer e.caller .lost) b).outbox.wakes := by
  induction dropped generalizing b with
  | nil => simp at hdropped
  | cons e rest ih =>
      rw [List.foldl_cons]
      by_cases hcaller : e.caller = some t
      · apply wakes_foldl_answer rest
        simp [hcaller, answer, hreply, wake, Outbox.wakeAll]
      · apply ih
        · rw [lookup_answer, if_neg fun h => hcaller h.1, hreply]
        · rwa [List.filter_cons_of_neg (by simpa using hcaller)] at hdropped

/-- When the registry stops, everybody in line goes on. -/
theorem wakes_stop_waiting (h : t ∈ b.mailbox.waiting) : t ∈ b.stop.outbox.wakes := by
  apply wakes_foldl_answer
  exact List.mem_append_right _ h

theorem wakes_stop_awaited (hreply : b.replies.lookup t = some .awaited)
    (hqueue : b.enqueued t ≠ []) : t ∈ b.stop.outbox.wakes :=
  mem_wakes_foldl_answer hreply hqueue

/-- The next step of a registry that was closed is its last. -/
theorem step_of_closing (hclosed : b.isClosed = true) (hgoing : b.hasStopped = false) :
    b.step = b.stop := by
  simp [step, hclosed, hgoing]

/-- A call for which nothing changes when it goes on is woken when the registry stops. -/
theorem Account.woken {call : Call L} (h : b.Account served t c past call)
    (hsuspended : (b.resume call).2 = .suspended call)
    (hsame : (b.resume call).1.flushed = b.flushed) : t ∈ b.stop.outbox.wakes := by
  cases h with
  | sending hidle hpast =>
      apply wakes_stop_waiting
      cases hposted : b.mailbox.send t ⟨c, some t⟩ with
      | mk mailbox posted =>
          simp only [Broker.resume, hposted] at hsuspended hsame
          cases posted with
          | accepted => cases hsuspended
          | refused => cases hsuspended
          | waits =>
              obtain rfl : mailbox = b.mailbox := congrArg Broker.mailbox hsame
              exact Mailbox.waiting_of_send hposted
  | queued hawaited hqueue hpast =>
      apply wakes_stop_awaited _ (by simp [hqueue])
      rcases (b.isAwaited_iff t).mp hawaited with hreply | hreply
      · -- it has only begun to listen
        have hlisten : (b.listen t).flushed = b.flushed := by
          simpa only [Broker.resume, hreply] using hsame
        have hheard : (b.listen t).replies.lookup t = some .awaited := by
          simp [Broker.listen, hreply, lookup_setReply]
        have hreplies : (b.listen t).replies = b.replies := (congrArg Broker.replies hlisten :)
        rw [hreplies, hreply] at hheard
        cases hheard
      · exact hreply
  | answered a hreply hqueue hanswer => simp [Broker.resume, hreply] at hsuspended
  | lost hreply hqueue hpast => simp [Broker.resume, hreply] at hsuspended

/-- Once the mailbox is shut, every call that goes on has come to its end. -/
theorem Account.ends {call : Call L} (h : b.Account served t c past call)
    (hshut : b.mailbox.IsShut) : ∃ result, (b.resume call).2 = .finished result := by
  cases h with
  | sending hidle hpast =>
      exact ⟨.error .closed, by simp [Broker.resume, Mailbox.send_of_shut hshut.isOpen, settlePost]⟩
  | queued hawaited hqueue hpast =>
      rw [enqueued, hshut.queue] at hqueue
      cases hqueue
  | answered a hreply hqueue hanswer => exact ⟨.ok a, by simp [Broker.resume, hreply]⟩
  | lost hreply hqueue hpast => exact ⟨.error .closed, by simp [Broker.resume, hreply]⟩

end Broker

end EventHub
