import EventHub.Proofs.Traffic.Slots

/-!
The turns of a registration, and of what posts a discard. Whatever they do, the task
stands somewhere with its slot afterwards, and what it has posted is founded.
-/

namespace EventHub

variable {L : Type}

namespace Broker

theorem isClosed_of_call {b : Broker L} {t : Ticket} {c : Command L} {e : BrokerError}
    (h : (b.call t c).2 = .finished (.error e)) : b.isClosed = true := by
  rw [call] at h
  split at h
  · assumption
  · cases h

theorem closed_of_call {b : Broker L} {t : Ticket} {c : Command L} {e : BrokerError}
    (h : (b.call t c).2 = .finished (.error e)) : (b.call t c).1.isClosed = true := by
  have hclosed := isClosed_of_call h
  rwa [call, if_pos hclosed]

/-- What was closed stays closed, whoever goes on. -/
theorem isClosed_resume (b : Broker L) (call : Call L) (h : b.isClosed = true) :
    (b.resume call).1.isClosed = true := by
  have hne : (⟨call.ticket.task + 1, call.ticket.serial⟩ : Ticket) ≠ call.ticket := fun heq =>
    absurd (congrArg Ticket.task heq) (Nat.succ_ne_self _)
  exact (Spares.resume b hne).isClosed h

/-- A call that is told that there is no answer was made to a closed broker. -/
theorem Account.isClosed_of_resume {b : Broker L} {served : List (Served L)} {t : Ticket}
    {c : Command L} {past : List (Request L)} {call : Call L}
    (h : b.Account served t c past call) (hsane : b.Sane) {e : BrokerError}
    (hresult : (b.resume call).2 = .finished (.error e)) : b.isClosed = true := by
  cases h with
  | sending hidle hpast =>
      apply hsane.mailbox
      cases hposted : b.mailbox.send t ⟨c, some t⟩ with
      | mk mailbox posted =>
          simp only [Broker.resume, hposted] at hresult
          cases posted with
          | accepted => cases hresult
          | waits => cases hresult
          | refused => exact Mailbox.send_refused (congrArg Prod.snd hposted)
  | queued hawaited hqueue hpast =>
      rcases (b.isAwaited_iff t).mp hawaited with hreply | hreply <;>
        simp [Broker.resume, hreply] at hresult
  | answered a hreply hqueue hanswer => simp [Broker.resume, hreply] at hresult
  | lost hreply hqueue hpast => exact hsane.lost t hreply

theorem Account.closed_of_resume {b : Broker L} {served : List (Served L)} {t : Ticket}
    {c : Command L} {past : List (Request L)} {call : Call L}
    (h : b.Account served t c past call) (hsane : b.Sane) {e : BrokerError}
    (hresult : (b.resume call).2 = .finished (.error e)) :
    (b.resume call).1.isClosed = true :=
  b.isClosed_resume call (h.isClosed_of_resume hsane hresult)

end Broker

namespace Traffic

variable {x x' : Traffic L} {t : Ticket} {handle : Handle}
  {ended : Handle → Option String → Prop}

theorem registering_suspended (x : Traffic L) (t : Ticket) (name : String) (b : Broker L)
    (stage : Registration L) (orphan : Option ServiceId) :
    (x.registering t name ⟨b, .suspended stage, orphan⟩).tasks t =
      some ⟨.registering name stage, false⟩ := by
  simp [registering, orphaned]

theorem registering_setUp (x : Traffic L) (t owner : Ticket) (name : String) (b : Broker L)
    (handle : Handle) (orphan : Option ServiceId) :
    (x.registering t name ⟨b, .setUp owner handle, orphan⟩).tasks t =
      some ⟨.registering name (.settingUp owner handle), false⟩ := by
  simp [registering, orphaned]

theorem registering_finished (x : Traffic L) (t : Ticket) (name : String) (b : Broker L)
    (result : Except BrokerError Handle) (orphan : Option ServiceId) :
    (x.registering t name ⟨b, .finished result, orphan⟩).tasks t =
      some ⟨.registered name result, false⟩ := by
  simp [registering, orphaned]

/-- The turn of a task has left it somewhere, and what it put into the mailbox, or left to
somebody to discard, is founded. -/
structure Turned (x x' : Traffic L) (t : Ticket) (ended : Handle → Option String → Prop) :
    Prop where
  task : ∃ task, x'.tasks t = some task ∧ x'.Stands t ended task
  posts : Broker.Posts x'.Founded x.broker x'.broker
  orphans : ∀ id ∈ x'.orphans, id ∈ x.orphans ∨ x'.Forsaken id

theorem Turned.same {task : Task L} (htask : x.tasks t = some task)
    (h : x.Stands t ended task) : Turned x x t ended :=
  ⟨⟨task, htask, h⟩, .refl _, fun _ hmem => Or.inl hmem⟩

/-- A registration has gone on. -/
theorem Turned.registering {name : String} {r : Registration.Result L} {task : Task L}
    (htask : (x.registering t name r).tasks t = some task)
    (hstands : (x.registering t name r).Stands t ended task)
    (hposts : Broker.Posts (x.registering t name r).Founded x.broker r.broker)
    (horphan : ∀ id ∈ r.orphan, (x.registering t name r).Forsaken id) :
    Turned x (x.registering t name r) t ended := by
  refine ⟨⟨task, htask, hstands⟩, hposts.trans (.flush _), ?_⟩
  intro id hmem
  have hcases : id ∈ x.orphans ++ r.orphan.toList := hmem
  rcases List.mem_append.mp hcases with hold | hnew
  · exact Or.inl hold
  · exact Or.inr (horphan id (by simpa using hnew))

theorem founded_plain {e : Envelope L} (h : e.command.IsPlain) : x.Founded e := by
  obtain ⟨command, caller⟩ := e
  cases command with
  | confirm id name => exact h.elim
  | discard id => exact h.elim
  | _ => trivial

/-- What one more turn leaves in the mailbox for the task. -/
theorem enqueued_posts {messages : Envelope L → Prop} {b b' : Broker L}
    (hposts : Broker.Posts messages b b') {e : Envelope L} (hmem : e ∈ b'.enqueued t) :
    e ∈ b.enqueued t ∨ messages e := by
  obtain ⟨hqueue, hcaller⟩ := List.mem_filter.mp hmem
  rcases hposts.of_mem hqueue with hold | hnew
  · exact Or.inl (List.mem_filter.mpr ⟨hold, hcaller⟩)
  · exact Or.inr hnew

theorem Owns.posts (h : x.Owns t handle) (hserved : x'.served = x.served)
    {messages : Envelope L → Prop} (hposts : Broker.Posts messages x.broker x'.broker)
    (hmessages : ∀ e, messages e → e.command.isReserve = false) : x'.Owns t handle where
  issued := by rw [hserved]; exact h.issued
  sole := by rw [hserved]; exact h.sole
  queue e hmem := by
    rcases enqueued_posts hposts hmem with hold | hnew
    · exact h.queue e hold
    · exact hmessages e hnew

theorem Asks.posts {commands : Command L → Prop} (h : x.Asks t commands)
    (hserved : x'.served = x.served) {messages : Envelope L → Prop}
    (hposts : Broker.Posts messages x.broker x'.broker)
    (hmessages : ∀ e, messages e → e.caller = some t → commands e.command) :
    x'.Asks t commands where
  queue e hmem := by
    rcases enqueued_posts hposts hmem with hold | hnew
    · exact h.queue e hold
    · exact hmessages e hnew (by simpa using (List.mem_filter.mp hmem).2)
  served := by rw [hserved]; exact h.served

/-- The task's request for a slot goes on. -/
theorem turned_reserved {name : String} {p : Broker L × Called L}
    (hprogress : p.1.Progress x.served t (.reserve name) [] p.2)
    (hposts : Broker.Posts (· = ⟨.reserve name, some t⟩) x.broker p.1)
    (hclosed : ∀ e, p.2 = .finished (.error e) → p.1.isClosed = true)
    (hended : ∀ h f, ¬ ended h f) :
    Turned x (x.registering t name (Registration.reserved name t p)) t ended := by
  obtain ⟨b, called⟩ := p
  have hfounded (x' : Traffic L) : Broker.Posts x'.Founded x.broker b := by
    apply hposts.imp
    rintro e rfl
    trivial
  cases hprogress with
  | suspended call haccount =>
      exact .registering (registering_suspended _ _ _ _ _ _)
        (.reserving name call haccount.flush hended) (hfounded _) (by simp [Registration.reserved])
  | answered a hidle hanswered =>
      obtain ⟨handle, rfl, rfl, hissued, hsole⟩ := hanswered.issued
      have hreserved : (x.registering t handle.name
          ⟨b, .setUp t handle, none⟩).Reserved t handle := by
        refine ⟨⟨hissued, hsole, ?_⟩, hidle.flush, hanswered.requestsOf⟩
        intro e hmem
        have hqueue : b.flushed.enqueued t = [] := hidle.flush.queue
        have hmem' : e ∈ b.flushed.enqueued t := hmem
        rw [hqueue] at hmem'
        cases hmem'
      exact .registering (registering_setUp _ _ _ _ _ _ _) (.settingUp handle hreserved hended)
        (hfounded _) (by simp [Registration.reserved])
  | closed hidle hpast =>
      exact .registering (registering_finished _ _ _ _ _ _)
        (.refused name hidle.flush hpast hended (hclosed _ rfl)) (hfounded _)
        (by simp [Registration.reserved])

/-- An error ends the registration of the slot, and it is forsaken. -/
theorem forsaken_finished (h : Issued x.served t handle) (name : String) (b : Broker L)
    (e : BrokerError) (orphan : Option ServiceId) :
    (x.registering t name ⟨b, .finished (.error e), orphan⟩).Forsaken handle.id :=
  ⟨t, handle, h, rfl, Or.inl ⟨name, e, registering_finished _ _ _ _ _ _⟩⟩

/-- The task's confirmation of its slot goes on. -/
theorem turned_confirmed {p : Broker L × Called L} (howns : x.Owns t handle)
    (hprogress : p.1.Progress x.served t (.confirm handle.id handle.name)
      [⟨.reserve handle.name, true⟩] p.2)
    (hposts : Broker.Posts (· = ⟨.confirm handle.id handle.name, some t⟩) x.broker p.1)
    (hclosed : ∀ e, p.2 = .finished (.error e) → p.1.isClosed = true)
    (hdecided : ∀ s ∈ x.served, s.request.Decides handle.id → s.caller = some t)
    (hended : Only ended handle none) :
    Turned x (x.registering t handle.name (Registration.confirmed handle p)) t ended := by
  obtain ⟨b, called⟩ := p
  have hfounded (next : Registration.Next L) (b' : Broker L) (orphan : Option ServiceId) :
      Broker.Posts (x.registering t handle.name ⟨b', next, orphan⟩).Founded x.broker b := by
    apply hposts.imp
    rintro e rfl
    exact ⟨t, rfl, howns.issued⟩
  have howns' (next : Registration.Next L) (b' : Broker L) (orphan : Option ServiceId)
      (hposts' : Broker.Posts (· = ⟨.discard handle.id, none⟩) b b') :
      (x.registering t handle.name ⟨b', next, orphan⟩).Owns t handle := by
    have hall : Broker.Posts (fun e => e.command.isReserve = false) x.broker b'.flushed := by
      refine (hposts.imp ?_).trans ((hposts'.imp ?_).trans (.flush _))
      · rintro e rfl
        rfl
      · rintro e rfl
        rfl
    exact howns.posts rfl hall fun _ h => h
  cases hprogress with
  | suspended call haccount =>
      exact .registering (registering_suspended _ _ _ _ _ _)
        (.confirming handle call (howns' _ _ _ (.refl b)) haccount.flush hended)
        (hfounded _ _ _) (by simp [Registration.confirmed])
  | answered a hidle hanswered =>
      obtain rfl := hanswered.settled howns.issued hdecided
      exact .registering (registering_finished _ _ _ _ _ _)
        (.admitted handle (howns' _ _ _ (.note b _ _ _)) hidle.flush hanswered hended)
        ((hfounded _ _ _).trans (.note b _ _ _)) (by simp [Registration.confirmed])
  | closed hidle hpast =>
      have hspares : Broker.Spares t b (Registration.abandonSlot b handle).1 :=
        Registration.spares_abandonSlot b handle
      have habandoned : Broker.Posts (· = ⟨.discard handle.id, none⟩) b
          (Registration.abandonSlot b handle).1 := Registration.posts_abandonSlot b rfl
      have hforsaken := forsaken_finished howns.issued handle.name
        (Registration.abandonSlot b handle).1 .closed (Registration.abandonSlot b handle).2
      refine .registering (registering_finished _ _ _ _ _ _)
        (.unconfirmed handle ⟨howns' _ _ _ habandoned, (hidle.spared hspares).flush, hpast⟩ hended
          (hspares.isClosed (hclosed _ rfl))) ?_ ?_
      · refine (hfounded _ _ _).trans (habandoned.imp ?_)
        rintro e rfl
        exact hforsaken
      · intro id hid
        rw [Registration.orphan_abandonSlot b handle id hid]
        exact hforsaken

/-- The task posts the discard after its setup has failed. -/
theorem turned_discarded {reason : String} (h : x.Reserved t handle) (hsane : x.broker.Sane)
    (hended : Only ended handle (some reason)) :
    Turned x (x.registering t handle.name
      (Registration.resume x.broker (.discarding t handle reason))) t ended := by
  have hcaller : (⟨.discard handle.id, none⟩ : Envelope L).caller ≠ some t := by simp
  have hspares := Broker.Spares.send x.broker t hcaller
  simp only [Registration.resume]
  cases hposted : x.broker.mailbox.send t ⟨.discard handle.id, none⟩ with
  | mk mailbox posted =>
      simp only [hposted] at hspares
      obtain ⟨hsent, haccepted, hrefused⟩ := hsane.send hposted
      -- whatever comes of it, the task keeps its slot
      have hkept (b : Broker L) (next : Registration.Next L) (hb : b.flushed =
          ({ x.broker with mailbox } : Broker L).flushed) :
          (x.registering t handle.name ⟨b, next, none⟩).Reserved t handle := by
        have hunreserved : Broker.Posts (fun e => e.command.isReserve = false) x.broker
            b.flushed := by
          rw [hb]
          refine (hsent.imp ?_).trans (.flush _)
          rintro e ⟨-, rfl⟩
          rfl
        have hidle := (h.idle.spared hspares).flush
        rw [← hb] at hidle
        exact ⟨h.toOwns.posts rfl hunreserved fun _ h => h, hidle, h.past⟩
      cases posted with
      | waits =>
          refine .registering (registering_suspended _ _ _ _ _ _)
            (.discarding handle reason (hkept _ _ rfl) hended) (hsent.imp ?_)
            (by simp [Registration.discarded])
          rintro e ⟨hnot, -⟩
          cases hnot
      | accepted =>
          refine .registering (registering_finished _ _ _ _ _ _)
            (.failed handle reason (hkept _ _ rfl) hended ?_) ((hsent.imp ?_).trans (.wake _ _))
            (by simp [Registration.discarded])
          · intro _
            exact Or.inl ⟨_, List.mem_append_right _ (haccepted rfl), rfl⟩
          · rintro e ⟨-, rfl⟩
            exact forsaken_finished h.issued handle.name _ _ none
      | refused =>
          refine .registering (registering_finished _ _ _ _ _ _)
            (.failed handle reason (hkept _ _ rfl) hended ?_) (hsent.imp ?_)
            (by simp [Registration.discarded])
          · intro hopen
            have hopen' : x.broker.isClosed = false := hopen
            rw [hrefused rfl] at hopen'
            cases hopen'
          · rintro e ⟨hnot, -⟩
            cases hnot

end Traffic

end EventHub
