import EventHub.Proofs.Traffic.Orderly

/-!
The calls under way, whatever they ask for. Each of them stands somewhere on its way to
an answer, and so does the task that made it: when it goes on, it still waits for its
command, or it goes on with the answer that the registry gave, or it is told that the
broker is closed and its command was never taken.
-/

namespace EventHub

variable {L : Type}

/-- The call that an activity waits for, with its command. -/
def Activity.call? : Activity L → Option (Command L × Call L)
  | .firing event call => some (.snapshot event.kind, call)
  | .registering _ (.reserving name call) => some (.reserve name, call)
  | .registering _ (.confirming handle call) => some (.confirm handle.id handle.name, call)
  | .subscribing service listener call => some (.subscribe service listener, call)
  | .listing call => some (.services, call)
  | _ => none

/-- The calls of subscribers and of those who list the services. -/
def Activity.inquiry? : Activity L → Option (Command L × Call L)
  | .subscribing service listener call => some (.subscribe service listener, call)
  | .listing call => some (.services, call)
  | _ => none

/-- What the task had asked for before this call. -/
def Activity.past : Activity L → List (Request L)
  | .registering _ (.confirming handle _) => [⟨.reserve handle.name, true⟩]
  | _ => []

/-- The same activity, with its call somewhere else. -/
def Activity.recall : Activity L → Call L → Activity L
  | .firing event _, call => .firing event call
  | .registering name (.reserving own _), call => .registering name (.reserving own call)
  | .registering name (.confirming handle _), call => .registering name (.confirming handle call)
  | .subscribing service listener _, call => .subscribing service listener call
  | .listing _, call => .listing call
  | a, _ => a

/-- What an activity comes to that is told of a closed broker. -/
def Activity.refused : Activity L → Activity L
  | .firing event _ => .fired event (.error .closed)
  | .registering name _ => .registered name (.error .closed)
  | .subscribing service listener _ => .subscribed service listener (.error .closed)
  | .listing _ => .listed (.error .closed)
  | a => a

/-- What an activity goes on with once it has its answer. -/
inductive Activity.Gets (t : Ticket) : Activity L → Answer L → Activity L → Prop where
  | listeners (event : Event) (call : Call L) (s : Subscription L) (rest : List (Subscription L)) :
      Gets t (.firing event call) (.subscriptions (s :: rest))
        (.delivering { event, remaining := rest, report := .ofEvent event } s)
  | nobody (event : Event) (call : Call L) :
      Gets t (.firing event call) (.subscriptions []) (.fired event (.ok (.ofEvent event)))
  | slot (name : String) (call : Call L) (handle : Handle) :
      Gets t (.registering name (.reserving name call)) (.reserved handle)
        (.registering name (.settingUp t handle))
  | admitted (handle : Handle) (call : Call L) :
      Gets t (.registering handle.name (.confirming handle call)) (.settled (.ok ()))
        (.registered handle.name (.ok handle))
  | subscribed (service : Handle) (listener : Listener L) (call : Call L) (a : Answer L) :
      Gets t (.subscribing service listener call) a (.subscribed service listener (.ok a))
  | listed (call : Call L) (a : Answer L) : Gets t (.listing call) a (.listed (.ok a))

theorem Activity.past_other {a : Activity L} {c : Command L} {call : Call L}
    (h : a.call? = some (c, call)) : ∀ q ∈ a.past, q.command ≠ c := by
  cases a with
  | registering name stage => cases stage <;> cases h <;> simp [Activity.past]
  | _ => cases h <;> simp [Activity.past]

theorem Registration.resume_reserving (b : Broker L) (name : String) (call : Call L) :
    resume b (.reserving name call) = reserved name call.ticket (b.resume call) := by
  cases call <;> rfl

namespace Traffic

/-- The registry took the command for the task. -/
def Taken (x : Traffic L) (t : Ticket) (c : Command L) : Prop :=
  ∃ s ∈ x.served, s.caller = some t ∧ s.request.command = c

theorem not_taken {x : Traffic L} {t : Ticket} {c : Command L} {past : List (Request L)}
    (hpast : Served.requestsOf x.served t = past) (hother : ∀ q ∈ past, q.command ≠ c) :
    ¬ x.Taken t c := by
  rintro ⟨s, hmem, hcaller, hc⟩
  exact hother _ (hpast ▸ Served.mem_requestsOf hmem hcaller) hc

section Inquiries

variable {x : Traffic L} {t : Ticket} {a : Activity L} {isGivenUp : Bool}

theorem inquiry_dispatching {event : Event} {p : Broker L × Dispatch.Next L}
    (htask : (x.dispatching t event p).tasks t = some ⟨a, isGivenUp⟩) : a.inquiry? = none := by
  obtain ⟨b, next⟩ := p
  cases next <;> simp [dispatching, note] at htask <;> simp [← htask.1, Activity.inquiry?]

theorem inquiry_registering {name : String} {r : Registration.Result L}
    (htask : (x.registering t name r).tasks t = some ⟨a, isGivenUp⟩) : a.inquiry? = none := by
  obtain ⟨b, next, orphan⟩ := r
  cases next <;> simp [registering, orphaned] at htask <;> simp [← htask.1, Activity.inquiry?]

theorem inquiry_posting {id : ServiceId} {p : Mailbox (Envelope L) × Mailbox.Posted}
    (htask : (x.posting t id p).tasks t = some ⟨a, isGivenUp⟩) : a.inquiry? = none := by
  obtain ⟨mailbox, posted⟩ := p
  cases posted <;> simp [posting] at htask <;> simp [← htask.1, Activity.inquiry?]

end Inquiries

/-- Whoever subscribes or lists has one command under way. -/
def Inquires (x : Traffic L) : Prop :=
  ∀ t a c call, x.tasks t = some ⟨a, false⟩ → a.inquiry? = some (c, call) →
    x.broker.Account x.served t c [] call

section Turns

variable {x : Traffic L} {t : Ticket} {a : Activity L} {c : Command L} {call : Call L}

/-- The task's own inquiry still waits after a look at it. -/
theorem inquires_subscribing {service : Handle} {listener : Listener L} {p : Broker L × Called L}
    (hprogress : p.1.Progress x.served t (.subscribe service listener) [] p.2)
    (htask : (x.subscribing t service listener p).tasks t = some ⟨a, false⟩)
    (hcall : a.inquiry? = some (c, call)) :
    (x.subscribing t service listener p).broker.Account x.served t c [] call := by
  obtain ⟨b, called⟩ := p
  cases hprogress with
  | suspended call' haccount =>
      simp only [subscribing, put_tasks, Option.some.injEq, Task.mk.injEq] at htask
      cases htask.1
      cases hcall
      exact haccount.flush
  | answered | closed =>
      simp only [subscribing, put_tasks, Option.some.injEq, Task.mk.injEq] at htask
      cases htask.1
      cases hcall

theorem inquires_listing {p : Broker L × Called L}
    (hprogress : p.1.Progress x.served t .services [] p.2)
    (htask : (x.listing t p).tasks t = some ⟨a, false⟩) (hcall : a.inquiry? = some (c, call)) :
    (x.listing t p).broker.Account x.served t c [] call := by
  obtain ⟨b, called⟩ := p
  cases hprogress with
  | suspended call' haccount =>
      simp only [listing, put_tasks, Option.some.injEq, Task.mk.injEq] at htask
      cases htask.1
      cases hcall
      exact haccount.flush
  | answered | closed =>
      simp only [listing, put_tasks, Option.some.injEq, Task.mk.injEq] at htask
      cases htask.1
      cases hcall

theorem inquires_start (h : x.Unused t) (s : Start L)
    (htask : (x.start t s).tasks t = some ⟨a, false⟩) (hcall : a.inquiry? = some (c, call)) :
    (x.start t s).broker.Account x.served t c [] call := by
  have hnone (hinquiry : a.inquiry? = none) :
      (x.start t s).broker.Account x.served t c [] call := by
    rw [hinquiry] at hcall
    cases hcall
  cases s with
  | fire event => exact hnone (inquiry_dispatching htask)
  | register name => exact hnone (inquiry_registering htask)
  | subscribe service listener =>
      exact inquires_subscribing (h.idle.call h.served _) htask hcall
  | list => exact inquires_listing (h.idle.call h.served _) htask hcall
  | discard id =>
      apply hnone
      simp only [start] at htask
      split at htask
      · simp only [put_tasks, Option.some.injEq, Task.mk.injEq] at htask
        simp [← htask.1, Activity.inquiry?]
      · rw [h.none] at htask
        cases htask

/-- The inquiries of a task that goes on. -/
theorem inquires_goOn {own : Activity L} (hold : x.tasks t = some ⟨own, false⟩)
    (haccount : ∀ c call, own.inquiry? = some (c, call) → x.broker.Account x.served t c [] call)
    (htask : (x.goOn t own).tasks t = some ⟨a, false⟩) (hcall : a.inquiry? = some (c, call)) :
    (x.goOn t own).broker.Account x.served t c [] call := by
  have hnone (hinquiry : a.inquiry? = none) :
      (x.goOn t own).broker.Account x.served t c [] call := by
    rw [hinquiry] at hcall
    cases hcall
  cases own with
  | firing event call' => exact hnone (inquiry_dispatching htask)
  | registering name stage => exact hnone (inquiry_registering htask)
  | subscribing service listener call' =>
      exact inquires_subscribing (haccount _ _ rfl).resume htask hcall
  | listing call' => exact inquires_listing (haccount _ _ rfl).resume htask hcall
  | discarding id => exact hnone (inquiry_posting htask)
  | _ =>
      cases hold.symm.trans htask
      cases hcall

theorem Inquires.turn (h : x.Lawful) (hinquires : x.Inquires) (turn : Turn L)
    (htask : (x.turn t turn).tasks t = some ⟨a, false⟩) (hcall : a.inquiry? = some (c, call)) :
    (x.turn t turn).broker.Account x.served t c [] call := by
  have hsame (hx : x.turn t turn = x) : (x.turn t turn).broker.Account x.served t c [] call := by
    rw [hx] at htask ⊢
    exact hinquires t a c call htask hcall
  have hnone (hinquiry : a.inquiry? = none) :
      (x.turn t turn).broker.Account x.served t c [] call := by
    rw [hinquiry] at hcall
    cases hcall
  cases hfound : x.tasks t with
  | none =>
      cases turn with
      | begin s =>
          rw [turn_none hfound] at htask ⊢
          exact inquires_start (h.unused hfound) s htask hcall
      | _ => exact hsame (by simp [Traffic.turn, hfound])
  | some task =>
      obtain ⟨own, isGivenUp⟩ := task
      cases isGivenUp with
      | true => exact hsame (Orderly.turn_over hfound (Or.inl rfl) turn)
      | false =>
          cases turn with
          | begin s => exact hsame (turn_some hfound _)
          | goOn =>
              rw [turn_some hfound] at htask ⊢
              exact inquires_goOn hfound (fun c call => hinquires t own c call hfound) htask hcall
          | listenerEnded verdict =>
              rw [turn_some hfound] at htask
              cases own with
              | delivering d s => exact hnone (inquiry_dispatching htask)
              | _ => exact hsame (turn_some hfound _)
          | setUpEnded outcome =>
              rw [turn_some hfound] at htask
              cases own with
              | registering name stage =>
                  cases stage with
                  | settingUp owner handle => exact hnone (inquiry_registering htask)
                  | _ => exact hsame (turn_some hfound _)
              | _ => exact hsame (turn_some hfound _)
          | giveUp =>
              -- whoever is given up asks for nothing any more
              rw [turn_some hfound] at htask
              cases own <;> simp [act, giveUp, orphaned, hfound] at htask <;>
                exact hnone (by simp [← htask, Activity.inquiry?])

theorem Inquires.step (h : x.Lawful) (hinquires : x.Inquires) (m : Move L) :
    (x.step m).Inquires := by
  intro t a c call htask hcall
  have hleft (hleaves : Leaves t x (x.step m)) :
      (x.step m).broker.Account (x.step m).served t c [] call := by
    rw [hleaves.task] at htask
    rw [hleaves.served]
    exact (hinquires t a c call htask hcall).spared hleaves.broker
  cases m with
  | task u turn =>
      by_cases heq : t = u
      · subst heq
        have hserved : (x.step (.task t turn)).served = x.served := (books_turn h.owned t turn).2.1
        rw [hserved]
        exact hinquires.turn h turn htask hcall
      · exact hleft (leaves_turn h.owned heq turn)
  | work =>
      have hasked : c.IsAsked := by cases a <;> cases hcall <;> trivial
      exact ((hinquires t a c call htask hcall).step hasked h.books).flush
  | close => exact hleft (.close x)

theorem inquires_run (config : Config) (worker : Ticket) (moves : List (Move L)) :
    (run config worker moves).Inquires := by
  induction moves using List.reverseRecOn with
  | nil =>
      intro t a c call htask
      cases htask
  | append_singleton moves m ih =>
      rw [run_concat]
      exact ih.step (lawful_run config worker moves) m

end Turns

section Accounts

variable {x : Traffic L} {t : Ticket} {a a' : Activity L} {c : Command L} {call call' : Call L}
  {answer : Answer L} {ended : Ticket → Handle → Option String → Prop}

/-- Every call under way has its account. -/
theorem Orderly.account (h : x.Orderly ended) (hinquires : x.Inquires)
    (htask : x.tasks t = some ⟨a, false⟩) (hcall : a.call? = some (c, call)) :
    x.broker.Account x.served t c a.past call := by
  cases a with
  | firing event call' =>
      cases hcall
      rcases h.lawful.each t with hunused | ⟨event', task, hfound, hfires⟩ | ⟨task, helsewhere⟩
      · cases hunused.none.symm.trans htask
      · cases hfound.symm.trans htask
        cases hfires with
        | asking _ haccount => exact haccount
        | answered _ _ hticket => cases hticket
      · cases helsewhere.found.symm.trans htask
        cases helsewhere.event
  | registering name stage =>
      cases stage with
      | reserving name' call' =>
          cases hcall
          cases h.stands t _ htask with
          | other _ _ hplain => exact hplain.elim
          | reserving _ _ haccount => exact haccount
      | confirming handle call' =>
          cases hcall
          cases h.stands t _ htask with
          | other _ _ hplain => exact hplain.elim
          | confirming _ _ _ haccount => exact haccount
      | settingUp | discarding => cases hcall
  | subscribing service listener call' =>
      cases hcall
      exact hinquires t _ _ _ htask rfl
  | listing call' =>
      cases hcall
      exact hinquires t _ _ _ htask rfl
  | _ => cases hcall

/-- What the registry gives is an answer that the activity can go on with. -/
theorem Orderly.gets (h : x.Orderly ended) (htask : x.tasks t = some ⟨a, false⟩)
    (hcall : a.call? = some (c, call)) (hanswered : Answered x.served t c a.past answer) :
    ∃ a', a.Gets t answer a' := by
  cases a with
  | firing event call' =>
      cases hcall
      obtain ⟨before, -, rfl⟩ := hanswered.snapshot
      cases Served.committed before event.kind with
      | nil => exact ⟨_, .nobody event call⟩
      | cons s rest => exact ⟨_, .listeners event call s rest⟩
  | registering name stage =>
      cases stage with
      | reserving name' call' =>
          cases hcall
          obtain ⟨handle, rfl, -⟩ := hanswered.issued
          cases h.stands t _ htask with
          | other _ _ hplain => exact hplain.elim
          | reserving => exact ⟨_, .slot name call handle⟩
      | confirming handle call' =>
          cases hcall
          cases h.stands t _ htask with
          | other _ _ hplain => exact hplain.elim
          | confirming _ _ howns =>
              obtain rfl := hanswered.settled howns.issued
                (h.decided howns.issued (not_forsakes htask (by simp)))
              exact ⟨_, .admitted handle call⟩
      | settingUp | discarding => cases hcall
  | subscribing service listener call' => exact ⟨_, .subscribed service listener call' answer⟩
  | listing call' => exact ⟨_, .listed call' answer⟩
  | _ => cases hcall

/-- A call that still waits leaves its task where it was. -/
theorem goOn_suspended (hcall : a.call? = some (c, call))
    (h : (x.broker.resume call).2 = .suspended call') :
    (x.goOn t a).tasks t = some ⟨a.recall call', false⟩ ∧
      (x.goOn t a).broker = (x.broker.resume call).1.flushed := by
  cases hp : x.broker.resume call with
  | mk b called =>
      rw [hp] at h
      obtain rfl : called = .suspended call' := h
      cases a with
      | firing event own =>
          cases hcall
          simp [goOn, Dispatch.resume, hp, Dispatch.asked, dispatching, Activity.recall, put]
      | registering name stage =>
          cases stage with
          | reserving name' own =>
              cases hcall
              simp [goOn, Registration.resume_reserving, hp, Registration.reserved, registering,
                orphaned, Activity.recall, put]
          | confirming handle own =>
              cases hcall
              simp [goOn, Registration.resume, hp, Registration.confirmed, registering,
                orphaned, Activity.recall, put]
          | settingUp | discarding => cases hcall
      | subscribing service listener own =>
          cases hcall
          simp [goOn, hp, subscribing, Activity.recall, put]
      | listing own =>
          cases hcall
          simp [goOn, hp, listing, Activity.recall, put]
      | _ => cases hcall

/-- A call that is told of a closed broker ends its activity. -/
theorem goOn_closed (hcall : a.call? = some (c, call))
    (h : (x.broker.resume call).2 = .finished (.error .closed)) :
    (x.goOn t a).tasks t = some ⟨a.refused, false⟩ := by
  cases hp : x.broker.resume call with
  | mk b called =>
      rw [hp] at h
      obtain rfl : called = .finished (.error .closed) := h
      cases a with
      | firing event own =>
          cases hcall
          simp [goOn, Dispatch.resume, hp, Dispatch.asked, dispatching, Activity.refused]
      | registering name stage =>
          cases stage with
          | reserving name' own =>
              cases hcall
              simp [goOn, Registration.resume_reserving, hp, Registration.reserved, registering,
                orphaned, Activity.refused, put]
          | confirming handle own =>
              cases hcall
              simp [goOn, Registration.resume, hp, Registration.confirmed, Registration.refused,
                registering, orphaned, Activity.refused, put]
          | settingUp | discarding => cases hcall
      | subscribing service listener own =>
          cases hcall
          simp [goOn, hp, subscribing, Activity.refused]
      | listing own =>
          cases hcall
          simp [goOn, hp, listing, Activity.refused]
      | _ => cases hcall

/-- A call with its answer hands it to its activity. -/
theorem goOn_answered (hcall : a.call? = some (c, call)) (hticket : call.ticket = t)
    (h : (x.broker.resume call).2 = .finished (.ok answer)) (hgets : a.Gets t answer a') :
    (x.goOn t a).tasks t = some ⟨a', false⟩ := by
  cases hp : x.broker.resume call with
  | mk b called =>
      rw [hp] at h
      obtain rfl : called = .finished (.ok answer) := h
      cases hgets with
      | listeners event own s rest =>
          cases hcall
          simp [goOn, Dispatch.resume, hp, Dispatch.asked, Dispatch.advance, dispatching, note, put]
      | nobody event own =>
          cases hcall
          simp [goOn, Dispatch.resume, hp, Dispatch.asked, Dispatch.advance, dispatching]
      | slot name own handle =>
          cases hcall
          simp [goOn, Registration.resume_reserving, hp, Registration.reserved, registering,
            orphaned, put, hticket]
      | admitted handle own =>
          cases hcall
          simp [goOn, Registration.resume, hp, Registration.confirmed, registering, orphaned, put]
      | subscribed service listener own answer =>
          cases hcall
          simp [goOn, hp, subscribing]
      | listed own answer =>
          cases hcall
          simp [goOn, hp, listing]

end Accounts

end Traffic

end EventHub
