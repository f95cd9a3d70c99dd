import EventHub.Proofs.Broker.Frame
import EventHub.Proofs.Registry.History

/-!
One step of the registry, as a call sees it: its command is taken and answered,
or is dropped because the registry stops, or somebody else's is taken and nothing
changes for it. The books change by what is taken and by nothing else.
-/

namespace EventHub

/-- A command that the registry took, with the call that wanted the answer. -/
structure Served (L : Type) where
  caller : Option Ticket
  request : Request L

namespace Served

variable {L : Type}

/-- What was taken for one call, in order. -/
def requestsOf (served : List (Served L)) (t : Ticket) : List (Request L) :=
  (served.filter (·.caller = some t)).map request

/-- The books after these commands. -/
def books (served : List (Served L)) : Registry L := Registry.run {} (served.map request)

theorem requestsOf_append (first second : List (Served L)) (t : Ticket) :
    requestsOf (first ++ second) t = requestsOf first t ++ requestsOf second t := by
  simp [requestsOf, List.filter_append]

theorem requestsOf_eq_nil {served : List (Served L)} {t : Ticket}
    (h : ∀ x ∈ served, x.caller ≠ some t) : requestsOf served t = [] := by
  have hnone : served.filter (·.caller = some t) = [] := by
    simpa [List.filter_eq_nil_iff] using h
  simp [requestsOf, hnone]

theorem requestsOf_append_other {served more : List (Served L)} {t : Ticket}
    (h : ∀ x ∈ more, x.caller ≠ some t) : requestsOf (served ++ more) t = requestsOf served t := by
  rw [requestsOf_append, requestsOf_eq_nil h, List.append_nil]

end Served

namespace Broker

variable {L : Type}

theorem isAwaited_iff (b : Broker L) (t : Ticket) :
    b.isAwaited (some t) = true ↔
      b.replies.lookup t = some .posted ∨ b.replies.lookup t = some .awaited := by
  simp only [isAwaited]
  split <;> simp_all

theorem lookup_answer (b : Broker L) (caller : Option Ticket) (reply : Reply L) (t : Ticket) :
    (b.answer caller reply).replies.lookup t =
      if caller = some t ∧ b.isAwaited (some t) then some reply else b.replies.lookup t := by
  cases caller with
  | none => simp [answer]
  | some u =>
      have hset := b.lookup_setReply u t reply
      by_cases hu : t = u
      · subst hu
        simp only [answer, isAwaited]
        split <;> simp_all [wake]
      · have hu' : u ≠ t := fun heq => hu heq.symm
        simp only [answer]
        split <;> simp_all [wake]

theorem mailbox_answer (b : Broker L) (caller : Option Ticket) (reply : Reply L) :
    (b.answer caller reply).mailbox = b.mailbox := by
  cases caller with
  | none => rfl
  | some u =>
      simp only [answer]
      split <;> rfl

theorem registry_answer (b : Broker L) (caller : Option Ticket) (reply : Reply L) :
    (b.answer caller reply).registry = b.registry := by
  cases caller with
  | none => rfl
  | some u =>
      simp only [answer]
      split <;> rfl

theorem isAwaited_congr {b b' : Broker L} {t : Ticket}
    (h : b'.replies.lookup t = b.replies.lookup t) :
    b'.isAwaited (some t) = b.isAwaited (some t) := by
  simp only [isAwaited, h]

/-- Those whose commands are dropped are told so, if they still wait. -/
theorem lookup_foldl_answer (dropped : List (Envelope L)) (b : Broker L) (t : Ticket) :
    (dropped.foldl (fun b e => b.answer e.caller .lost) b).replies.lookup t =
      if b.isAwaited (some t) ∧ dropped.filter (·.caller = some t) ≠ [] then some .lost
      else b.replies.lookup t := by
  induction dropped generalizing b with
  | nil => simp
  | cons e rest ih =>
      have hanswer := b.lookup_answer e.caller .lost t
      rw [List.foldl_cons, ih]
      by_cases hcaller : e.caller = some t
      · by_cases hawaited : b.isAwaited (some t) = true
        · rw [if_pos ⟨hcaller, hawaited⟩, hcaller] at hanswer
          simp [hanswer, hcaller, hawaited]
        · rw [if_neg (fun h => hawaited h.2)] at hanswer
          simp [isAwaited_congr hanswer, hanswer, hawaited]
      · rw [if_neg (fun h => hcaller h.1)] at hanswer
        simp [isAwaited_congr hanswer, hanswer, hcaller]

theorem mailbox_foldl_answer (dropped : List (Envelope L)) (b : Broker L) :
    (dropped.foldl (fun b e => b.answer e.caller .lost) b).mailbox = b.mailbox := by
  induction dropped generalizing b with
  | nil => rfl
  | cons e rest ih => rw [List.foldl_cons, ih, mailbox_answer]

theorem registry_foldl_answer (dropped : List (Envelope L)) (b : Broker L) :
    (dropped.foldl (fun b e => b.answer e.caller .lost) b).registry = b.registry := by
  induction dropped generalizing b with
  | nil => rfl
  | cons e rest ih => rw [List.foldl_cons, ih, registry_answer]

/-- What the registry takes in its next step. -/
def serving (b : Broker L) : List (Served L) :=
  if b.hasStopped || b.isClosed then []
  else (b.mailbox.queue.take 1).map fun e => ⟨e.caller, ⟨e.command, b.isAwaited e.caller⟩⟩

theorem mailbox_stop (b : Broker L) : b.stop.mailbox = b.mailbox.close.1 :=
  mailbox_foldl_answer _ _

theorem registry_stop (b : Broker L) : b.stop.registry = b.registry :=
  registry_foldl_answer _ _

theorem lookup_stop (b : Broker L) (t : Ticket) :
    b.stop.replies.lookup t =
      if b.isAwaited (some t) ∧ b.enqueued t ≠ [] then some .lost else b.replies.lookup t :=
  lookup_foldl_answer _ _ t

theorem foldl_record (records : List Record) (b : Broker L) :
    (records.foldl record b).replies = b.replies ∧ (records.foldl record b).mailbox = b.mailbox ∧
      (records.foldl record b).registry = b.registry := by
  induction records generalizing b with
  | nil => exact ⟨rfl, rfl, rfl⟩
  | cons r rest ih => exact ih (b.record r)

/-- The command is applied, and its caller gets the answer if there is one. -/
theorem serve_spec (b : Broker L) (e : Envelope L) (t : Ticket) :
    (b.serve e).registry = b.registry.after ⟨e.command, b.isAwaited e.caller⟩ ∧
    (b.serve e).mailbox = b.mailbox ∧
    (b.serve e).replies.lookup t =
      match (b.registry.serve e.command (b.isAwaited e.caller)).2 with
      | none => b.replies.lookup t
      | some a =>
        if e.caller = some t ∧ b.isAwaited (some t) then some (.given a)
        else b.replies.lookup t := by
  let served := b.registry.serve e.command (b.isAwaited e.caller)
  let records := b.registry.recordsOf e.command (b.isAwaited e.caller)
  obtain ⟨hreplies, hmailbox, hregistry⟩ :=
    foldl_record records { b with registry := served.1 }
  have hserve : b.serve e = match served.2 with
      | none => records.foldl record { b with registry := served.1 }
      | some a => (records.foldl record { b with registry := served.1 }).answer e.caller
          (.given a) := rfl
  rw [hserve]
  cases served.2 with
  | none =>
      refine ⟨hregistry, hmailbox, ?_⟩
      simp only [hreplies]
  | some a =>
      have hawaited : (records.foldl record { b with registry := served.1 }).isAwaited (some t) =
          b.isAwaited (some t) := by
        apply isAwaited_congr
        rw [hreplies]
      refine ⟨(registry_answer _ _ _).trans hregistry, (mailbox_answer _ _ _).trans hmailbox, ?_⟩
      simp only [lookup_answer, hawaited, hreplies]

/-- Either the registry has nothing to do, or it stops, or it takes the oldest
command. -/
theorem step_cases (b : Broker L) :
    (b.step = b ∧ b.serving = []) ∨
    (b.hasStopped = false ∧ b.step = b.stop ∧ b.serving = []) ∨
    (∃ e rest mailbox woken, b.hasStopped = false ∧ b.isClosed = false ∧
      b.mailbox.queue = e :: rest ∧ mailbox.queue = rest ∧
      b.step = ({ b with mailbox }.wake woken).serve e ∧
      b.serving = [⟨e.caller, ⟨e.command, b.isAwaited e.caller⟩⟩]) := by
  cases hstopped : b.hasStopped with
  | true => exact Or.inl ⟨by simp [step, hstopped], by simp [serving, hstopped]⟩
  | false =>
      cases hclosed : b.isClosed with
      | true =>
          exact Or.inr (Or.inl ⟨rfl, by simp [step, hstopped, hclosed],
            by simp [serving, hclosed]⟩)
      | false =>
          cases hqueue : b.mailbox.queue with
          | nil =>
              exact Or.inl ⟨by simp [step, hstopped, hclosed, Mailbox.receive, hqueue],
                by simp [serving, hstopped, hclosed, hqueue]⟩
          | cons e rest =>
              let handed := Mailbox.handOn { b.mailbox with queue := rest }
              refine Or.inr (Or.inr ⟨e, rest, handed.1, handed.2, rfl, rfl, rfl, ?_, ?_, ?_⟩)
              · exact Mailbox.queue_handOn _
              · simp [step, hstopped, hclosed, Mailbox.receive, hqueue, handed]
              · simp [serving, hstopped, hclosed, hqueue]

theorem registry_step (b : Broker L) :
    b.step.registry = b.registry.run (b.serving.map Served.request) := by
  rcases b.step_cases with ⟨hstep, hserving⟩ | ⟨-, hstep, hserving⟩ |
    ⟨e, rest, mailbox, woken, -, -, -, -, hstep, hserving⟩
  · rw [hstep, hserving]
    rfl
  · rw [hstep, hserving, registry_stop]
    rfl
  · rw [hstep, hserving]
    exact (serve_spec _ e ⟨0, 0⟩).1

/-- What one step of the registry means for one call. -/
inductive StepFor (b : Broker L) (t : Ticket) : Prop where
  | other (hreply : b.step.replies.lookup t = b.replies.lookup t)
      (hqueue : b.step.enqueued t = b.enqueued t)
      (hserving : ∀ x ∈ b.serving, x.caller ≠ some t)
  | taken (c : Command L) (rest : List (Envelope L))
      (hqueue : b.enqueued t = ⟨c, some t⟩ :: rest) (hrest : b.step.enqueued t = rest)
      (hserving : b.serving = [⟨some t, ⟨c, b.isAwaited (some t)⟩⟩])
      (hgiven : ∀ a, b.isAwaited (some t) = true → (b.registry.serve c true).2 = some a →
        b.step.replies.lookup t = some (.given a))
  | dropped (hqueue : b.enqueued t ≠ []) (hrest : b.step.enqueued t = [])
      (hserving : b.serving = [])
      (hlost : b.isAwaited (some t) = true → b.step.replies.lookup t = some .lost)

theorem stepFor (b : Broker L) (t : Ticket) : b.StepFor t := by
  rcases b.step_cases with ⟨hstep, hserving⟩ | ⟨-, hstep, hserving⟩ |
    ⟨e, rest, mailbox, woken, -, -, hqueue, hmailbox, hstep, hserving⟩
  · exact .other (by rw [hstep]) (by rw [hstep]) (by simp [hserving])
  · have hlookup := b.lookup_stop t
    have hrest : b.step.enqueued t = [] := by
      rw [hstep, enqueued, mailbox_stop]
      rfl
    rw [← hstep] at hlookup
    by_cases hnone : b.enqueued t = []
    · rw [if_neg fun h => h.2 hnone] at hlookup
      exact .other hlookup (hrest.trans hnone.symm) (by simp [hserving])
    · exact .dropped hnone hrest hserving fun hawaited => by
        rw [hlookup, if_pos ⟨hawaited, hnone⟩]
  · obtain ⟨-, hmailbox', hlookup⟩ := serve_spec ({ b with mailbox }.wake woken) e t
    rw [← hstep] at hmailbox' hlookup
    have hrest : b.step.enqueued t = rest.filter (·.caller = some t) := by
      rw [enqueued, hmailbox', ← hmailbox]
      rfl
    have hold : b.enqueued t = (e :: rest).filter (·.caller = some t) := by
      rw [enqueued, hqueue]
    by_cases hcaller : e.caller = some t
    · obtain ⟨c, caller⟩ := e
      obtain rfl : caller = some t := hcaller
      refine .taken c _ (by simpa using hold) hrest hserving ?_
      intro a hawaited ha
      have hawaited' : ({ b with mailbox }.wake woken).isAwaited (some t) = true := hawaited
      simp only [hawaited'] at hlookup
      have ha' : (({ b with mailbox }.wake woken).registry.serve c true).2 = some a := ha
      simpa [ha'] using hlookup
    · refine .other ?_ ?_ ?_
      · rw [hlookup]
        split
        · rfl
        · rw [if_neg fun h => hcaller h.1]
          rfl
      · rw [hrest, hold, List.filter_cons_of_neg (by simpa using hcaller)]
      · simpa [hserving] using hcaller

theorem flushed_foldl_record (records : List Record) (b : Broker L) :
    (records.foldl record b).flushed = b.flushed := by
  induction records generalizing b with
  | nil => rfl
  | cons r rest ih => exact ih (b.record r)

/-- What a broker has to tell makes no difference to what it answers. -/
theorem flushed_answer {b b' : Broker L} (h : b.flushed = b'.flushed) (caller : Option Ticket)
    (reply : Reply L) : (b.answer caller reply).flushed = (b'.answer caller reply).flushed := by
  cases caller with
  | none => exact h
  | some t =>
      have hreplies : b.replies = b'.replies := (congrArg Broker.replies h :)
      have hset : (b.setReply t reply).flushed = (b'.setReply t reply).flushed :=
        (congrArg (·.setReply t reply) h :)
      simp only [answer, hreplies]
      split
      · exact hset
      · exact hset
      · exact h

theorem flushed_foldl_answer (dropped : List (Envelope L)) {b b' : Broker L}
    (h : b.flushed = b'.flushed) :
    (dropped.foldl (fun b e => b.answer e.caller .lost) b).flushed =
      (dropped.foldl (fun b e => b.answer e.caller .lost) b').flushed := by
  induction dropped generalizing b b' with
  | nil => exact h
  | cons e rest ih => exact ih (flushed_answer h e.caller .lost)

theorem flushed_serve {b b' : Broker L} (h : b.flushed = b'.flushed) (e : Envelope L) :
    (b.serve e).flushed = (b'.serve e).flushed := by
  have hregistry : b.registry = b'.registry := (congrArg Broker.registry h :)
  have hwaits : b.isAwaited e.caller = b'.isAwaited e.caller :=
    (congrArg (·.isAwaited e.caller) h :)
  simp only [serve, hregistry, hwaits]
  have hrecorded (records : List Record) (r : Registry L) :
      (records.foldl record { b with registry := r }).flushed =
        (records.foldl record { b' with registry := r }).flushed := by
    rw [flushed_foldl_record, flushed_foldl_record]
    exact (congrArg (fun b : Broker L => { b with registry := r }) h :)
  split
  · exact hrecorded _ _
  · exact flushed_answer (hrecorded _ _) _ _

theorem flushed_step {b b' : Broker L} (h : b.flushed = b'.flushed) :
    b.step.flushed = b'.step.flushed := by
  have hmailbox : b.mailbox = b'.mailbox := (congrArg Broker.mailbox h :)
  have hstopped : b.hasStopped = b'.hasStopped := (congrArg Broker.hasStopped h :)
  have hclosed : b.isClosed = b'.isClosed := (congrArg Broker.isClosed h :)
  simp only [step, hmailbox, hstopped, hclosed]
  split
  · exact h
  · split
    · simp only [stop, hmailbox]
      apply flushed_foldl_answer
      exact (congrArg (fun b : Broker L =>
        { b with mailbox := b'.mailbox.close.1, hasStopped := true }) h :)
    · split
      · exact h
      · rename_i e mailbox woken _
        refine flushed_serve ?_ e
        exact (congrArg (fun b : Broker L =>
          { b with mailbox, isClosed := b'.isClosed, hasStopped := b'.hasStopped }) h :)

end Broker

end EventHub
