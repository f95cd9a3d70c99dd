import EventHub.Proofs.Broker.Step

/-!
Where one call stands. Until its command is accepted nothing is under way for
it; then exactly one command in the mailbox is; then its answer is, which is the
one that the registry gave, or the news that there will be none. So what a call
ends with is the answer to its own command, at the books of that moment.
-/

namespace EventHub

variable {L : Type}

/-- Somebody is told something about the command. -/
def Command.IsAsked : Command L → Prop
  | .discard _ => False
  | _ => True

theorem Registry.serve_isSome (r : Registry L) {c : Command L} (hc : c.IsAsked) (waits : Bool) :
    ∃ a, (r.serve c waits).2 = some a := by
  cases c with
  | discard id => exact hc.elim
  | reserve name => exact ⟨_, rfl⟩
  | subscribe service listener => exact ⟨_, rfl⟩
  | confirm id name => exact ⟨_, rfl⟩
  | snapshot kind => exact ⟨_, rfl⟩
  | services => exact ⟨_, rfl⟩

/-- The command was taken once while its caller waited, and its answer is this
one. Earlier the same caller had asked what is in `past`, and nothing since. -/
def Answered (served : List (Served L)) (t : Ticket) (c : Command L) (past : List (Request L))
    (a : Answer L) : Prop :=
  ∃ before after, served = before ++ ⟨some t, ⟨c, true⟩⟩ :: after ∧
    Served.requestsOf before t = past ∧ Served.requestsOf after t = [] ∧
    ((Served.books before).serve c true).2 = some a

theorem Answered.append {served more : List (Served L)} {t : Ticket} {c : Command L}
    {past : List (Request L)} {a : Answer L} (h : Answered served t c past a)
    (hmore : ∀ x ∈ more, x.caller ≠ some t) : Answered (served ++ more) t c past a := by
  obtain ⟨before, after, rfl, hpast, hsince, ha⟩ := h
  refine ⟨before, after ++ more, by simp, hpast, ?_, ha⟩
  rw [Served.requestsOf_append_other hmore, hsince]

namespace Broker

/-- Nothing is under way for a call. -/
structure Idle (b : Broker L) (t : Ticket) : Prop where
  reply : b.replies.lookup t = none
  queue : b.enqueued t = []

/-- Where a call with one command stands. -/
inductive Account (b : Broker L) (served : List (Served L)) (t : Ticket) (c : Command L)
    (past : List (Request L)) : Call L → Prop where
  | sending (hidle : b.Idle t) (hpast : Served.requestsOf served t = past) :
      Account b served t c past (.sending t c)
  | queued (hawaited : b.isAwaited (some t) = true) (hqueue : b.enqueued t = [⟨c, some t⟩])
      (hpast : Served.requestsOf served t = past) : Account b served t c past (.awaiting t)
  | answered (a : Answer L) (hreply : b.replies.lookup t = some (.given a))
      (hqueue : b.enqueued t = []) (hanswer : Answered served t c past a) :
      Account b served t c past (.awaiting t)
  | lost (hreply : b.replies.lookup t = some .lost) (hqueue : b.enqueued t = [])
      (hpast : Served.requestsOf served t = past) : Account b served t c past (.awaiting t)

/-- What a call that goes on comes to. -/
inductive Progress (b : Broker L) (served : List (Served L)) (t : Ticket) (c : Command L)
    (past : List (Request L)) : Called L → Prop where
  | suspended (call : Call L) (haccount : b.Account served t c past call) :
      Progress b served t c past (.suspended call)
  | answered (a : Answer L) (hidle : b.Idle t) (hanswer : Answered served t c past a) :
      Progress b served t c past (.finished (.ok a))
  | closed (hidle : b.Idle t) (hpast : Served.requestsOf served t = past) :
      Progress b served t c past (.finished (.error .closed))

variable {b b' : Broker L} {served : List (Served L)} {t : Ticket} {c : Command L}
  {past : List (Request L)}

theorem Idle.spared (h : b.Idle t) (hspares : Spares t b b') : b'.Idle t :=
  ⟨hspares.reply.trans h.reply, hspares.enqueued.trans h.queue⟩

theorem Idle.flush (h : b.Idle t) : b.flushed.Idle t := h.spared (.flush b)

/-- The registry takes nothing for a call that has nothing under way. -/
theorem serving_of_queue_nil (hqueue : b.enqueued t = []) :
    b.step.replies.lookup t = b.replies.lookup t ∧ b.step.enqueued t = [] ∧
      ∀ x ∈ b.serving, x.caller ≠ some t := by
  cases b.stepFor t with
  | other hreply hkept hserving => exact ⟨hreply, hkept.trans hqueue, hserving⟩
  | taken c rest hfirst => cases hqueue.symm.trans hfirst
  | dropped hsome => exact absurd hqueue hsome

theorem Idle.step (h : b.Idle t) : b.step.Idle t := by
  obtain ⟨hreply, hqueue, -⟩ := serving_of_queue_nil h.queue
  exact ⟨hreply.trans h.reply, hqueue⟩

theorem Account.spared {call : Call L} (h : b.Account served t c past call)
    (hspares : Spares t b b') : b'.Account served t c past call := by
  cases h with
  | sending hidle hpast => exact .sending (hidle.spared hspares) hpast
  | queued hawaited hqueue hpast =>
      exact .queued (by rwa [isAwaited_congr hspares.reply]) (hspares.enqueued.trans hqueue) hpast
  | answered a hreply hqueue hanswer =>
      exact .answered a (hspares.reply.trans hreply) (hspares.enqueued.trans hqueue) hanswer
  | lost hreply hqueue hpast =>
      exact .lost (hspares.reply.trans hreply) (hspares.enqueued.trans hqueue) hpast

theorem Account.flush {call : Call L} (h : b.Account served t c past call) :
    b.flushed.Account served t c past call := h.spared (.flush b)

/-- While the registry works, a call's command stays in the mailbox until it is
taken, and is answered then. -/
theorem Account.step {call : Call L} (h : b.Account served t c past call) (hc : c.IsAsked)
    (hbooks : b.registry = Served.books served) :
    b.step.Account (served ++ b.serving) t c past call := by
  cases h with
  | sending hidle hpast =>
      obtain ⟨-, -, hserving⟩ := serving_of_queue_nil hidle.queue
      exact .sending hidle.step ((Served.requestsOf_append_other hserving).trans hpast)
  | queued hawaited hqueue hpast =>
      cases b.stepFor t with
      | other hreply hkept hserving =>
          exact .queued (by rwa [isAwaited_congr hreply]) (hkept.trans hqueue)
            ((Served.requestsOf_append_other hserving).trans hpast)
      | taken c' rest hfirst hrest hserving hgiven =>
          obtain ⟨rfl, rfl⟩ : c' = c ∧ rest = [] := by
            rw [hqueue] at hfirst
            simpa [eq_comm] using hfirst
          obtain ⟨a, ha⟩ := b.registry.serve_isSome hc true
          refine .answered a (hgiven a hawaited ha) hrest ⟨served, [], ?_, hpast, rfl, ?_⟩
          · rw [hserving, hawaited]
          · rw [← hbooks, ha]
      | dropped _ hrest hserving hlost =>
          refine .lost (hlost hawaited) hrest ?_
          rw [hserving, List.append_nil, hpast]
  | answered a hreply hqueue hanswer =>
      obtain ⟨hkept, hrest, hserving⟩ := serving_of_queue_nil hqueue
      exact .answered a (hkept.trans hreply) hrest (hanswer.append hserving)
  | lost hreply hqueue hpast =>
      obtain ⟨hkept, hrest, hserving⟩ := serving_of_queue_nil hqueue
      exact .lost (hkept.trans hreply) hrest
        ((Served.requestsOf_append_other hserving).trans hpast)

theorem Account.ticket {call : Call L} (h : b.Account served t c past call) : call.ticket = t := by
  cases h <;> rfl

theorem Idle.call (h : b.Idle t) (hpast : Served.requestsOf served t = past) (c : Command L) :
    (b.call t c).1.Progress served t c past (b.call t c).2 := by
  rw [Broker.call]
  split
  · exact .closed h hpast
  · exact .suspended _ (.sending h hpast)

theorem Idle.forget (b : Broker L) (hqueue : b.enqueued t = []) :
    ({ b with replies := b.replies.filter (·.1 ≠ t) } : Broker L).Idle t where
  reply := by rw [Lookup.lookup_filter_ne, if_pos rfl]
  queue := hqueue

/-- The command is accepted: it is the one thing under way. -/
theorem Account.accepted (hidle : b.Idle t) (hpast : Served.requestsOf served t = past)
    {mailbox : Mailbox (Envelope L)} (hqueue : mailbox.queue = b.mailbox.queue ++ [⟨c, some t⟩]) :
    (({ b with mailbox }.await t).wake [b.worker]).Account served t c past (.awaiting t) := by
  refine .queued ?_ ?_ hpast
  · rw [isAwaited_iff]
    left
    have hreply : b.replies.lookup t = none := hidle.reply
    simp [await, wake, List.lookup_append, hreply]
  · have hnone : b.mailbox.queue.filter (·.caller = some t) = [] := hidle.queue
    simp [enqueued, await, wake, hqueue, hnone]

/-- A call that goes on still waits for its own command's answer, or ends with
it, or ends because there will be none. -/
theorem Account.resume {call : Call L} (h : b.Account served t c past call) :
    (b.resume call).1.Progress served t c past (b.resume call).2 := by
  cases h with
  | sending hidle hpast =>
      have hqueue := b.mailbox.queue_send t ⟨c, some t⟩
      cases hposted : b.mailbox.send t ⟨c, some t⟩ with
      | mk mailbox posted =>
          simp only [hposted] at hqueue
          simp only [Broker.resume, hposted]
          have hkept (hnone : mailbox.queue = b.mailbox.queue) :
              ({ b with mailbox } : Broker L).Idle t := by
            refine ⟨hidle.reply, ?_⟩
            rw [enqueued, hnone]
            exact hidle.queue
          cases posted with
          | accepted => exact .suspended _ (.accepted hidle hpast (by simpa using hqueue))
          | waits => exact .suspended _ (.sending (hkept (by simpa using hqueue)) hpast)
          | refused => exact .closed (hkept (by simpa using hqueue)) hpast
  | queued hawaited hqueue hpast =>
      rcases (b.isAwaited_iff t).mp hawaited with hreply | hreply
      · have hlisten : b.listen t = b.setReply t .awaited := by simp [listen, hreply]
        simp only [Broker.resume, hreply]
        refine .suspended _ (.queued ?_ ?_ hpast)
        · rw [isAwaited_iff, hlisten, lookup_setReply]
          simp [hreply]
        · rw [hlisten]
          exact hqueue
      · simp only [Broker.resume, hreply]
        exact .suspended _ (.queued hawaited hqueue hpast)
  | answered a hreply hqueue hanswer =>
      simp only [Broker.resume, hreply]
      exact .answered a (.forget b hqueue) hanswer
  | lost hreply hqueue hpast =>
      simp only [Broker.resume, hreply]
      exact .closed (.forget b hqueue) hpast

end Broker

end EventHub
