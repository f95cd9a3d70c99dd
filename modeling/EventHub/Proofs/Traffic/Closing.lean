import EventHub.Proofs.Broker.Closing
import EventHub.Proofs.Traffic.Accounts

/-!
Closing, in every interleaving. Whatever was under way when the broker was closed, the
registry takes nothing more; its next step is its last, and wakes everybody who waits.
Whoever goes on after that has come to the end of the call: with the answer, if the
registry had taken the command, and with the news that the broker is closed if not.
-/

namespace EventHub

variable {L : Type}

namespace Broker

/-- A registry that has stopped was closed, and has shut the mailbox. -/
def Halts (b : Broker L) : Prop :=
  b.hasStopped = true → b.isClosed = true ∧ b.mailbox.IsShut

theorem Halts.step {b : Broker L} (h : b.Halts) : b.step.Halts := by
  rcases b.step_cases with ⟨hstep, -⟩ | ⟨hgoing, hstep, -⟩ |
    ⟨e, rest, mailbox, woken, hgoing, -, -, -, hstep, -⟩
  · rwa [hstep]
  · intro _
    have hclosed : b.isClosed = true := by
      by_contra hopen
      have hlast : b.step.hasStopped = true := by rw [hstep, hasStopped_stop]
      rcases step_of_open (b := b) (by simpa using hopen) with ⟨hsame, -⟩ |
        ⟨e, rest, mailbox, woken, -, -, -, hserve, -⟩
      · rw [hsame, hgoing] at hlast
        cases hlast
      · rw [hserve, hasStopped_serve] at hlast
        cases hgoing.symm.trans hlast
    rw [hstep, isClosed_stop, mailbox_stop]
    exact ⟨hclosed, Mailbox.isShut_close _⟩
  · intro hstopped
    rw [hstep, hasStopped_serve] at hstopped
    cases hgoing.symm.trans hstopped

end Broker

/-- What cannot go on without the registry. -/
def Activity.IsBound : Activity L → Prop
  | .registering _ (.discarding ..) => True
  | .discarding _ => True
  | a => a.call? ≠ none

/-- What is begun at a closed broker comes to at once. -/
def Start.refusal? : Start L → Option (Activity L)
  | .fire event => some (.fired event (.error .closed))
  | .register name => some (.registered name (.error .closed))
  | .subscribe service listener => some (.subscribed service listener (.error .closed))
  | .list => some (.listed (.error .closed))
  | .discard _ => none

theorem Activity.call?_recall {a : Activity L} {c : Command L} {call : Call L}
    (h : a.call? = some (c, call)) (call' : Call L) :
    (a.recall call').call? = some (c, call') := by
  cases a with
  | registering name stage => cases stage <;> cases h <;> rfl
  | _ => cases h <;> rfl

theorem Activity.call?_refused (a : Activity L) (h : a.call? ≠ none) : a.refused.call? = none := by
  cases a with
  | registering name stage => rfl
  | firing | subscribing | listing => rfl
  | _ => exact absurd rfl h

theorem Activity.Gets.call?_eq_none {t : Ticket} {a a' : Activity L} {answer : Answer L}
    (h : a.Gets t answer a') : a'.call? = none := by
  cases h <;> rfl

namespace Traffic

section Shut

variable (x : Traffic L) (t : Ticket)

@[simp] theorem broker_dispatching (event : Event) (p : Broker L × Dispatch.Next L) :
    (x.dispatching t event p).broker = p.1.flushed := by
  obtain ⟨b, next⟩ := p
  cases next <;> rfl

@[simp] theorem broker_subscribing (service : Handle) (listener : Listener L)
    (p : Broker L × Called L) : (x.subscribing t service listener p).broker = p.1.flushed := by
  obtain ⟨b, called⟩ := p
  cases called <;> rfl

@[simp] theorem broker_listing (p : Broker L × Called L) :
    (x.listing t p).broker = p.1.flushed := by
  obtain ⟨b, called⟩ := p
  cases called <;> rfl

open Broker (Keeps)

theorem keeps_start (s : Start L) : Keeps x.broker (x.start t s).broker := by
  cases s with
  | fire event =>
      rw [start, broker_dispatching]
      exact ((Keeps.call _ t _).trans (Dispatch.keeps_asked event _)).trans (.of_eq rfl)
  | register name =>
      have hnoted : Keeps x.broker (x.broker.note .debug "attempting to register service"
        [("service", name)]) := .of_eq rfl
      exact ((hnoted.trans (.call _ t _)).trans (Registration.keeps_reserved name t _)).trans
        (.of_eq rfl)
  | subscribe service listener =>
      rw [start, broker_subscribing]
      exact (Keeps.call _ t _).trans (.of_eq rfl)
  | list =>
      rw [start, broker_listing]
      exact (Keeps.call _ t _).trans (.of_eq rfl)
  | discard id =>
      rw [start]
      split <;> exact .of_eq rfl

theorem keeps_goOn (a : Activity L) : Keeps x.broker (x.goOn t a).broker := by
  cases a with
  | firing event call =>
      rw [goOn, broker_dispatching]
      exact ((Keeps.resume _ call).trans (Dispatch.keeps_asked event _)).trans (.of_eq rfl)
  | registering name stage => exact (Registration.keeps_resume _ stage).trans (.of_eq rfl)
  | subscribing service listener call =>
      rw [goOn, broker_subscribing]
      exact (Keeps.resume _ call).trans (.of_eq rfl)
  | listing call =>
      rw [goOn, broker_listing]
      exact (Keeps.resume _ call).trans (.of_eq rfl)
  | discarding id =>
      intro hshut
      rw [goOn, Mailbox.send_of_shut hshut.isOpen]
      rfl
  | _ => exact .refl _

theorem keeps_act (a : Activity L) (turn : Turn L) : Keeps x.broker (x.act t a turn).broker := by
  cases turn with
  | begin s => exact .refl _
  | goOn => exact keeps_goOn x t a
  | listenerEnded verdict =>
      cases a with
      | delivering d s =>
          simp only [act, listenerEnded, broker_dispatching]
          exact (Dispatch.keeps_ended _ d s _).trans (.of_eq rfl)
      | _ => exact .refl _
  | setUpEnded outcome =>
      cases a with
      | registering name stage =>
          cases stage with
          | settingUp owner handle =>
              exact (Registration.keeps_setUpEnded _ owner handle outcome).trans (.of_eq rfl)
          | _ => exact .refl _
      | _ => exact .refl _
  | giveUp =>
      cases a with
      | firing event call => exact (Keeps.giveUp _ call).trans (.of_eq rfl)
      | delivering d s => exact .of_eq rfl
      | registering name stage => exact (Registration.keeps_giveUp _ stage).trans (.of_eq rfl)
      | subscribing service listener call => exact (Keeps.giveUp _ call).trans (.of_eq rfl)
      | listing call => exact (Keeps.giveUp _ call).trans (.of_eq rfl)
      | _ => exact .refl _

theorem keeps_turn (turn : Turn L) : Keeps x.broker (x.turn t turn).broker := by
  rw [Traffic.turn.eq_def]
  split
  · exact keeps_start x t _
  · exact .refl _
  · exact keeps_act x t _ _
  · exact .refl _

end Shut

section Runs

variable {x : Traffic L}

theorem halts_step (h : x.Lawful) (hhalts : x.broker.Halts) (m : Move L) :
    (x.step m).broker.Halts := by
  cases m with
  | task u turn =>
      intro hstopped
      have hne : (⟨u.task + 1, u.serial⟩ : Ticket) ≠ u := fun heq =>
        absurd (congrArg Ticket.task heq) (Nat.succ_ne_self _)
      have hspares := (leaves_turn h.owned hne turn).broker
      obtain ⟨hclosed, hshut⟩ := hhalts (hspares.hasStopped.symm.trans hstopped)
      exact ⟨hspares.isClosed hclosed, (keeps_turn x u turn).isShut hshut⟩
  | work => exact hhalts.step
  | close =>
      intro hstopped
      have hspares := Broker.Spares.close x.broker (t := ⟨0, 0⟩)
      obtain ⟨hclosed, hshut⟩ := hhalts (hspares.hasStopped.symm.trans hstopped)
      have hmailbox : (x.step .close).broker.mailbox = x.broker.mailbox := x.broker.closing.mailbox
      exact ⟨hspares.isClosed hclosed, hmailbox ▸ hshut⟩

theorem halts_run (config : Config) (worker : Ticket) (moves : List (Move L)) :
    (run config worker moves).broker.Halts := by
  induction moves using List.reverseRecOn with
  | nil =>
      intro hstopped
      cases hstopped
  | append_singleton moves m ih =>
      rw [run_concat]
      exact halts_step (lawful_run config worker moves) ih m

end Runs

/-- The task has something under way at the broker, and going on changes nothing. -/
def Waits (x : Traffic L) (t : Ticket) : Prop :=
  (∃ a, x.tasks t = some ⟨a, false⟩ ∧ a.IsBound) ∧ x.step (.task t .goOn) = x

/-- What comes of a call when its task goes on. -/
inductive Resumes (x : Traffic L) (t : Ticket) (a : Activity L) (c : Command L) : Prop where
  /-- It still waits, as long as the registry has not stopped. -/
  | waits (call : Call L) (hgoing : x.broker.hasStopped = false)
      (htask : (x.step (.task t .goOn)).tasks t = some ⟨a.recall call, false⟩)
  /-- The registry had taken the command, and answers. -/
  | answered (answer : Answer L) (a' : Activity L)
      (hanswered : Answered x.served t c a.past answer) (hgets : a.Gets t answer a')
      (htask : (x.step (.task t .goOn)).tasks t = some ⟨a', false⟩)
  /-- The command was never taken. -/
  | closed (hdropped : ¬ x.Taken t c)
      (htask : (x.step (.task t .goOn)).tasks t = some ⟨a.refused, false⟩)

section Calls

variable {x : Traffic L} {t : Ticket} {a : Activity L} {c : Command L} {call : Call L}
  {ended : Ticket → Handle → Option String → Prop}

theorem Orderly.resumes (h : x.Orderly ended) (hinquires : x.Inquires) (hhalts : x.broker.Halts)
    (htask : x.tasks t = some ⟨a, false⟩) (hcall : a.call? = some (c, call)) :
    x.Resumes t a c := by
  have haccount := h.account hinquires htask hcall
  have hstep : x.step (.task t .goOn) = x.goOn t a := turn_some htask _
  have hprogress := haccount.resume
  cases hresumed : (x.broker.resume call).2 with
  | suspended call' =>
      refine .waits call' ?_ (hstep ▸ (goOn_suspended hcall hresumed).1)
      by_contra hstopped
      obtain ⟨result, hends⟩ := haccount.ends (hhalts (by simpa using hstopped)).2
      cases hresumed.symm.trans hends
  | finished result =>
      rw [hresumed] at hprogress
      cases hprogress with
      | answered answer _ hanswered =>
          obtain ⟨a', hgets⟩ := h.gets htask hcall hanswered
          exact .answered answer a' hanswered hgets
            (hstep ▸ goOn_answered hcall haccount.ticket hresumed hgets)
      | closed _ hpast =>
          exact .closed (not_taken hpast (Activity.past_other hcall))
            (hstep ▸ goOn_closed hcall hresumed)

/-- Whoever has called the broker and waits is woken when the registry stops. -/
theorem Orderly.woken_of_call (h : x.Orderly ended) (hinquires : x.Inquires)
    (htask : x.tasks t = some ⟨a, false⟩) (hcall : a.call? = some (c, call))
    (hsame : x.goOn t a = x) : t ∈ x.broker.stop.outbox.wakes := by
  have haccount := h.account hinquires htask hcall
  have hprogress := haccount.resume
  have hkept {a' : Activity L} (hnext : (x.goOn t a).tasks t = some ⟨a', false⟩) : a' = a := by
    rw [hsame, htask] at hnext
    cases hnext
    rfl
  have hover {a' : Activity L} (hnext : (x.goOn t a).tasks t = some ⟨a', false⟩) :
      a'.call? ≠ none := by
    rw [hkept hnext, hcall]
    simp
  cases hresumed : (x.broker.resume call).2 with
  | suspended call' =>
      obtain ⟨hnext, hbroker⟩ := goOn_suspended hcall hresumed
      have hrecalled := Activity.call?_recall hcall call'
      rw [hkept hnext, hcall] at hrecalled
      cases hrecalled
      apply haccount.woken hresumed
      rw [hsame] at hbroker
      exact (congrArg Broker.flushed hbroker).symm
  | finished result =>
      rw [hresumed] at hprogress
      cases hprogress with
      | answered answer _ hanswered =>
          obtain ⟨a', hgets⟩ := h.gets htask hcall hanswered
          exact absurd hgets.call?_eq_none
            (hover (goOn_answered hcall haccount.ticket hresumed hgets))
      | closed =>
          have hnone := a.call?_refused (by simp [hcall])
          exact absurd hnone (hover (goOn_closed hcall hresumed))

theorem Orderly.woken (h : x.Orderly ended) (hinquires : x.Inquires) (hwaits : x.Waits t) :
    t ∈ x.broker.stop.outbox.wakes := by
  obtain ⟨⟨a, htask, hbound⟩, hstep⟩ := hwaits
  have hsame : x.goOn t a = x := (turn_some htask .goOn).symm.trans hstep
  cases hcall : a.call? with
  | some waiting => exact h.woken_of_call hinquires htask hcall hsame
  | none =>
      cases a with
      | registering name stage =>
          cases stage with
          | discarding owner handle reason =>
              obtain ⟨rfl, rfl⟩ : name = handle.name ∧ owner = t := by
                cases h.stands t _ htask with
                | other _ _ hplain => exact hplain.elim
                | discarding => exact ⟨rfl, rfl⟩
              cases hposted : x.broker.mailbox.send owner ⟨.discard handle.id, none⟩ with
              | mk mailbox posted =>
                  rw [goOn, Registration.resume] at hsame
                  simp only [hposted] at hsame
                  cases posted with
                  | waits =>
                      obtain rfl : mailbox = x.broker.mailbox :=
                        (congrArg (·.broker.mailbox) hsame :)
                      exact Broker.wakes_stop_waiting (Mailbox.waiting_of_send hposted)
                  | accepted | refused =>
                      have hnext := (congrArg (·.tasks owner) hsame :)
                      simp [Registration.discarded, registering, orphaned, htask] at hnext
          | _ => exact absurd hcall hbound
      | discarding id =>
          cases hposted : x.broker.mailbox.send t ⟨.discard id, none⟩ with
          | mk mailbox posted =>
              rw [goOn, hposted] at hsame
              cases posted with
              | waits =>
                  obtain rfl : mailbox = x.broker.mailbox :=
                    (congrArg (·.broker.mailbox) hsame :)
                  exact Broker.wakes_stop_waiting (Mailbox.waiting_of_send hposted)
              | accepted | refused =>
                  have hnext := (congrArg (·.tasks t) hsame :)
                  simp [posting, htask] at hnext
      | _ => exact absurd hcall hbound

/-- A service that has set itself up is not admitted any more. -/
theorem setUpEnded_closed (hclosed : x.broker.isClosed = true) {name : String} {owner : Ticket}
    {handle : Handle} (outcome : Outcome (Except ServiceError Unit)) :
    (x.setUpEnded t outcome (.registering name (.settingUp owner handle))).tasks t =
      some ⟨match Registration.failure? outcome with
        | none => .registered name (.error .closed)
        | some reason => .registering name (.discarding owner handle reason), false⟩ := by
  simp only [setUpEnded, Registration.setUpEnded]
  cases Registration.failure? outcome with
  | none =>
      simp [Broker.call, hclosed, Registration.confirmed, Registration.refused, registering,
        orphaned, put]
  | some reason => simp [registering, orphaned, put]

/-- Nobody answers a discard: the registration has failed as soon as there is room for it, or
no mailbox any more. -/
theorem goOn_discarding (hhalts : x.broker.Halts) (name : String) (owner : Ticket)
    (handle : Handle) (reason : String) :
    let next := (x.goOn t (.registering name (.discarding owner handle reason))).tasks t
    next = some ⟨.registered name (.error (.initializationFailed handle.name reason)), false⟩ ∨
      x.broker.hasStopped = false ∧
        next = some ⟨.registering name (.discarding owner handle reason), false⟩ := by
  cases hposted : x.broker.mailbox.send owner ⟨.discard handle.id, none⟩ with
  | mk mailbox posted =>
      simp only [goOn, Registration.resume, hposted]
      cases posted with
      | accepted | refused =>
          left
          simp [Registration.discarded, registering, orphaned, put]
      | waits =>
          right
          refine ⟨?_, by simp [Registration.discarded, registering, orphaned, put]⟩
          by_contra hstopped
          have hshut := (hhalts (by simpa using hstopped)).2
          rw [Mailbox.send_of_shut hshut.isOpen] at hposted
          cases hposted

/-- At a closed broker everything has come to its end at once, and has called nobody. -/
theorem start_closed (hclosed : x.broker.isClosed = true) {s : Start L}
    (hrefusal : s.refusal? = some a) :
    (x.start t s).tasks t = some ⟨a, false⟩ ∧ (x.start t s).deliveries t = x.deliveries t := by
  cases s with
  | fire event =>
      cases hrefusal
      simp [start, Dispatch.start, Broker.call, hclosed, Dispatch.asked, dispatching]
  | register name =>
      cases hrefusal
      have hnoted : (x.broker.note .debug "attempting to register service"
        [("service", name)]).isClosed = true := hclosed
      refine ⟨?_, rfl⟩
      simp [start, Registration.start, Broker.call, hnoted, Registration.reserved, registering,
        orphaned, put]
  | subscribe service listener =>
      cases hrefusal
      simp [start, Broker.call, hclosed, subscribing]
  | list =>
      cases hrefusal
      simp [start, Broker.call, hclosed, listing]
  | discard id => cases hrefusal

/-- What has come to its end stays as it is. -/
theorem turn_refused {s : Start L} (hrefusal : s.refusal? = some a)
    (htask : x.tasks t = some ⟨a, false⟩) (turn : Turn L) : x.turn t turn = x := by
  rw [turn_some htask]
  cases s with
  | discard id => cases hrefusal
  | _ =>
      cases hrefusal
      cases turn <;> rfl

theorem refused_step (h : x.Lawful) {s : Start L} (hrefusal : s.refusal? = some a)
    (htask : x.tasks t = some ⟨a, false⟩) (m : Move L) :
    (x.step m).tasks t = some ⟨a, false⟩ ∧ (x.step m).deliveries t = x.deliveries t := by
  cases m with
  | task u turn =>
      by_cases heq : t = u
      · subst heq
        have hsame : x.step (.task t turn) = x := turn_refused hrefusal htask turn
        rw [hsame]
        exact ⟨htask, rfl⟩
      · have hleaves := leaves_turn h.owned heq turn
        exact ⟨hleaves.task.trans htask, hleaves.deliveries⟩
  | work => exact ⟨htask, rfl⟩
  | close => exact ⟨htask, rfl⟩

end Calls

/-- What holds at a closed broker after these moves, and from then on. -/
structure Closes (config : Config) (worker : Ticket) (moves : List (Move L)) : Prop where
  /-- The books are those of the commands that were taken, each of them as a whole. -/
  books : (run config worker moves).broker.registry = Served.books (run config worker moves).served
  /-- The broker never reopens, nothing more is taken, and the books stay as they are. -/
  lasts : ∀ later, (run config worker (moves ++ later)).broker.isClosed = true ∧
    (run config worker (moves ++ later)).served = (run config worker moves).served ∧
    (run config worker (moves ++ later)).broker.registry = (run config worker moves).broker.registry
  again : (run config worker moves).broker.close = (run config worker moves).broker
  /-- The registry's next step is its last. Whoever waits is woken by it. -/
  stops : (run config worker moves).broker.hasStopped = false →
    ((run config worker moves).step .work).broker.hasStopped = true ∧
      ∀ t, (run config worker moves).Waits t →
        t ∈ (run config worker moves).broker.step.outbox.wakes
  /-- Every call under way ends as the registry has left it, and waits no longer than the
  registry does. -/
  calls : ∀ t a c call, (run config worker moves).tasks t = some ⟨a, false⟩ →
    a.call? = some (c, call) → (run config worker moves).Resumes t a c
  /-- A service that sets itself up meanwhile is turned away then, unless it fails. -/
  setUps : ∀ t name owner handle outcome,
    (run config worker moves).tasks t = some ⟨.registering name (.settingUp owner handle), false⟩ →
    ((run config worker moves).step (.task t (.setUpEnded outcome))).tasks t =
      some ⟨match Registration.failure? outcome with
        | none => .registered name (.error .closed)
        | some reason => .registering name (.discarding owner handle reason), false⟩
  /-- Whose setup has failed is told that, and waits no longer than the registry does. -/
  failures : ∀ t name owner handle reason,
    (run config worker moves).tasks t =
      some ⟨.registering name (.discarding owner handle reason), false⟩ →
    let next := ((run config worker moves).step (.task t .goOn)).tasks t
    next = some ⟨.registered name (.error (.initializationFailed name reason)), false⟩ ∨
      (run config worker moves).broker.hasStopped = false ∧
        next = some ⟨.registering name (.discarding owner handle reason), false⟩
  /-- What is begun now is refused for good, and neither a listener nor a setup is called. -/
  begun : ∀ t s a, (run config worker moves).tasks t = none → s.refusal? = some a →
    ∀ later, (run config worker (moves ++ .task t (.begin s) :: later)).tasks t = some ⟨a, false⟩ ∧
      (run config worker (moves ++ .task t (.begin s) :: later)).deliveries t = []

section Closes

variable {config : Config} {worker : Ticket} {moves : List (Move L)}

theorem lasts_run (hclosed : (run config worker moves).broker.isClosed = true)
    (later : List (Move L)) :
    (run config worker (moves ++ later)).broker.isClosed = true ∧
      (run config worker (moves ++ later)).served = (run config worker moves).served := by
  induction later using List.reverseRecOn with
  | nil => simp [hclosed]
  | append_singleton later m ih =>
      rw [← List.append_assoc, run_concat]
      obtain ⟨hstays, hserved⟩ := closed_step (lawful_run config worker _) ih.1 m
      exact ⟨hstays, hserved.trans ih.2⟩

theorem begun_run (hclosed : (run config worker moves).broker.isClosed = true) {t : Ticket}
    {s : Start L} {a : Activity L} (hnone : (run config worker moves).tasks t = none)
    (hrefusal : s.refusal? = some a) (later : List (Move L)) :
    (run config worker (moves ++ .task t (.begin s) :: later)).tasks t = some ⟨a, false⟩ ∧
      (run config worker (moves ++ .task t (.begin s) :: later)).deliveries t = [] := by
  induction later using List.reverseRecOn with
  | nil =>
      obtain ⟨htask, hdeliveries⟩ := start_closed (t := t) hclosed hrefusal
      rw [run_concat, Traffic.step, turn_none hnone]
      exact ⟨htask, hdeliveries.trans ((lawful_run config worker moves).unused hnone).log⟩
  | append_singleton later m ih =>
      rw [← List.cons_append, ← List.append_assoc, run_concat]
      obtain ⟨htask, hdeliveries⟩ := refused_step (lawful_run config worker _) hrefusal ih.1 m
      exact ⟨htask, hdeliveries.trans ih.2⟩

theorem closes_run (hclosed : (run config worker moves).broker.isClosed = true) :
    Closes config worker moves := by
  have horderly := orderly_run config worker moves
  have hinquires := inquires_run config worker moves
  have hhalts := halts_run config worker moves
  have hbooks (moves : List (Move L)) := (lawful_run config worker moves).books
  refine ⟨hbooks moves, ?lasts, Broker.close_of_closed hclosed, ?stops, ?calls, ?setUps, ?failures,
    ?begun⟩
  case lasts =>
    intro later
    obtain ⟨hstays, hserved⟩ := lasts_run hclosed later
    exact ⟨hstays, hserved, by rw [hbooks, hbooks, hserved]⟩
  case stops =>
    intro hgoing
    have hstep := Broker.step_of_closing hclosed hgoing
    constructor
    · have hstopped : (run config worker moves).broker.step.hasStopped = true := by
        rw [hstep, Broker.hasStopped_stop]
      exact hstopped
    · intro t hwaits
      rw [hstep]
      exact horderly.woken hinquires hwaits
  case calls =>
    intro t a c call htask hcall
    exact horderly.resumes hinquires hhalts htask hcall
  case setUps =>
    intro t name owner handle outcome htask
    rw [Traffic.step, turn_some htask]
    exact setUpEnded_closed hclosed outcome
  case failures =>
    intro t name owner handle reason htask
    obtain rfl : name = handle.name := by
      cases horderly.stands t _ htask with
      | other _ _ hplain => exact hplain.elim
      | discarding => rfl
    rw [Traffic.step, turn_some htask]
    exact goOn_discarding hhalts handle.name owner handle reason
  case begun =>
    intro t s a hnone hrefusal later
    exact begun_run hclosed hnone hrefusal later

end Closes

end Traffic

end EventHub
