import EventHub.Proofs.Traffic.Registering

/-!
The turns of everybody else, and of those who leave. What does not concern a slot posts
neither a confirmation nor a discard; whoever gives a registration up forsakes its slot.
-/

namespace EventHub

variable {L : Type}

def Dispatch.Next.message? : Dispatch.Next L → Option (Envelope L)
  | .asking _ call => call.message?
  | _ => none

theorem Dispatch.message_advance (b : Broker L) (d : Dispatch L) :
    (advance b d).2.message? = none := by
  rw [advance]
  split <;> rfl

theorem Dispatch.message_asked (event : Event) (p : Broker L × Called L) :
    ∀ e ∈ (asked event p).2.message?, e ∈ p.2.message? := by
  rw [asked.eq_def]
  split
  · exact fun _ h => h
  · rw [message_advance]
    simp
  · simp [Next.message?]
  · simp [Next.message?]

/-- Giving a registration up gives its slot up. -/
theorem Registration.giveUp_of_handle {stage : Registration L} {handle : Handle}
    (h : stage.handle? = some handle) (b : Broker L) :
    ∃ b', Broker.Posts (fun _ => False) b b' ∧ giveUp b stage = abandonSlot b' handle := by
  cases stage with
  | reserving name call => cases h
  | settingUp t own =>
      obtain rfl := Option.some.inj h
      exact ⟨b, .refl b, rfl⟩
  | discarding t own reason =>
      obtain rfl := Option.some.inj h
      exact ⟨_, (Broker.Posts.leave b t).trans (.wake _ _), rfl⟩
  | confirming own call =>
      obtain rfl := Option.some.inj h
      exact ⟨b.giveUp call, .giveUp b call, rfl⟩

/-- What was posted for a call, and what was taken for it. -/
theorem Broker.Account.asked {b : Broker L} {served : List (Served L)} {t : Ticket}
    {c : Command L} {past : List (Request L)} {call : Call L}
    (h : b.Account served t c past call) :
    (∀ e ∈ b.enqueued t, e = ⟨c, some t⟩) ∧ (∀ q ∈ Served.requestsOf served t, q ∈ past ∨
      q = ⟨c, true⟩) := by
  have hold (hpast : Served.requestsOf served t = past) :
      ∀ q ∈ Served.requestsOf served t, q ∈ past ∨ q = ⟨c, true⟩ := by
    rw [hpast]
    exact fun q hmem => Or.inl hmem
  cases h with
  | sending hidle hpast => exact ⟨by simp [hidle.queue], hold hpast⟩
  | queued hawaited hqueue hpast => exact ⟨by simp [hqueue], hold hpast⟩
  | answered a hreply hqueue hanswer =>
      refine ⟨by simp [hqueue], ?_⟩
      rw [hanswer.requestsOf]
      intro q hmem
      rcases List.mem_append.mp hmem with hmem | hmem
      · exact Or.inl hmem
      · exact Or.inr (List.mem_singleton.mp hmem)
  | lost hreply hqueue hpast => exact ⟨by simp [hqueue], hold hpast⟩

namespace Traffic

section Turns

variable {x x' : Traffic L} {t : Ticket} {ended : Handle → Option String → Prop}

/-- A task that does not concern a slot has had a turn. -/
theorem turned_plain {a : Activity L} {isGivenUp : Bool}
    (htask : x'.tasks t = some ⟨a, isGivenUp⟩) (hserved : x'.served = x.served)
    (horphans : x'.orphans = x.orphans)
    (hposts : Broker.Posts (fun e => e.command.IsPlain) x.broker x'.broker) (hplain : a.IsPlain)
    (hasks : x.Asks t Command.IsPlain) (hmessage : ∀ e ∈ a.message?, e.command.IsPlain) :
    Turned x x' t ended where
  task := ⟨_, htask, .other a isGivenUp hplain (hasks.posts hserved hposts fun _ h _ => h) hmessage⟩
  posts := hposts.imp fun _ h => founded_plain h
  orphans _ hmem := Or.inl (horphans ▸ hmem)

theorem turned_dispatching {event : Event} {p : Broker L × Dispatch.Next L}
    (hasks : x.Asks t Command.IsPlain)
    (hposts : Broker.Posts (fun e => e.command.IsPlain) x.broker p.1)
    (hmessage : ∀ e ∈ p.2.message?, e.command.IsPlain) :
    Turned x (x.dispatching t event p) t ended := by
  obtain ⟨b, next⟩ := p
  have hposts' := hposts.trans (.flush b)
  cases next with
  | asking event' call =>
      exact turned_plain (put_tasks _ _ _ _) rfl rfl hposts' trivial hasks hmessage
  | deliver s rest =>
      exact turned_plain (put_tasks x t b _) rfl rfl hposts' trivial hasks
        (by simp [Activity.message?])
  | finished result =>
      exact turned_plain (put_tasks _ _ _ _) rfl rfl hposts' trivial hasks
        (by simp [Activity.message?])

theorem turned_subscribing {service : Handle} {listener : Listener L} {p : Broker L × Called L}
    (hasks : x.Asks t Command.IsPlain)
    (hposts : Broker.Posts (fun e => e.command.IsPlain) x.broker p.1)
    (hmessage : ∀ e ∈ p.2.message?, e.command.IsPlain) :
    Turned x (x.subscribing t service listener p) t ended := by
  obtain ⟨b, called⟩ := p
  have hposts' := hposts.trans (.flush b)
  cases called with
  | suspended call => exact turned_plain (put_tasks _ _ _ _) rfl rfl hposts' trivial hasks hmessage
  | finished result =>
      exact turned_plain (put_tasks _ _ _ _) rfl rfl hposts' trivial hasks
        (by simp [Activity.message?])

theorem turned_listing {p : Broker L × Called L} (hasks : x.Asks t Command.IsPlain)
    (hposts : Broker.Posts (fun e => e.command.IsPlain) x.broker p.1)
    (hmessage : ∀ e ∈ p.2.message?, e.command.IsPlain) : Turned x (x.listing t p) t ended := by
  obtain ⟨b, called⟩ := p
  have hposts' := hposts.trans (.flush b)
  cases called with
  | suspended call => exact turned_plain (put_tasks _ _ _ _) rfl rfl hposts' trivial hasks hmessage
  | finished result =>
      exact turned_plain (put_tasks _ _ _ _) rfl rfl hposts' trivial hasks
        (by simp [Activity.message?])

/-- The turn of what posts a discard. -/
theorem turned_posting {id : ServiceId} (hasks : x.Asks t Command.IsPlain)
    (horphan : id ∈ x.orphans) (horphans : ∀ id ∈ x.orphans, x.Forsaken id)
    (hsane : x.broker.Sane) (htask : x.tasks t = some ⟨.discarding id, false⟩) :
    Turned x (x.goOn t (.discarding id)) t ended := by
  simp only [goOn]
  cases hposted : x.broker.mailbox.send t ⟨.discard id, none⟩ with
  | mk mailbox posted =>
      obtain ⟨hsent, haccepted, hrefused⟩ := hsane.send hposted
      -- the owner of the slot is somebody else, and as far as it was
      have hforsaken (b : Broker L) (a : Activity L) : (x.put t b a).Forsaken id := by
        obtain ⟨u, handle, hissued, hid, hforsakes⟩ := horphans id horphan
        have hne : u ≠ t := by
          rintro rfl
          rcases hforsakes with ⟨name, e, h⟩ | ⟨name, stage, h, -⟩ <;> simp [htask] at h
        have hkept : (x.put t b a).tasks u = x.tasks u := by simp [put, hne]
        refine ⟨u, handle, hissued, hid, ?_⟩
        rw [Forsakes, hkept]
        exact hforsakes
      have hturned {b : Broker L} {a : Activity L}
          (hb : b.flushed = ({ x.broker with mailbox } : Broker L).flushed)
          (hstands : (x.put t b a).Asks t Command.IsPlain →
            (x.put t b a).Stands t ended ⟨a, false⟩) : Turned x (x.put t b a) t ended := by
        have hposts : Broker.Posts (· = ⟨.discard id, none⟩) x.broker b.flushed := by
          rw [hb]
          exact (hsent.imp fun _ h => h.2).trans (.flush _)
        refine ⟨⟨_, put_tasks _ _ _ _, hstands ?_⟩, hposts.imp ?_, fun _ hmem => Or.inl hmem⟩
        · refine hasks.posts rfl hposts ?_
          rintro e rfl hcaller
          cases hcaller
        · rintro e rfl
          exact hforsaken b a
      cases posted with
      | accepted =>
          refine hturned rfl fun hasks' => .posted id hasks' fun _ => ?_
          exact ⟨_, List.mem_append_right _ (haccepted rfl), rfl⟩
      | waits => exact hturned rfl fun hasks' => .posting id hasks' horphan
      | refused =>
          refine hturned rfl fun hasks' => .posted id hasks' fun hopen => ?_
          have hopen' : x.broker.isClosed = false := hopen
          rw [hrefused rfl] at hopen'
          cases hopen'

/-- The registration is given up before it knows its slot. -/
theorem turned_leaveEarly {name : String} {call : Call L}
    (haccount : x.broker.Account x.served t (.reserve name) [] call) :
    Turned x (x.giveUp t (.registering name (.reserving name call))) t ended := by
  have hposts : Broker.Posts (fun _ => False) x.broker (x.broker.giveUp call).flushed :=
    (Broker.Posts.giveUp x.broker call).trans (.flush _)
  obtain ⟨hqueue, hserved⟩ := haccount.asked
  have hqueue' {e : Envelope L} (hmem : e ∈ (x.broker.giveUp call).flushed.enqueued t) :
      e ∈ x.broker.enqueued t := by
    rcases enqueued_posts hposts hmem with hold | hnew
    · exact hold
    · exact hnew.elim
  have htask : (x.giveUp t (.registering name (.reserving name call))).tasks t =
      some ⟨.registering name (.reserving name call), true⟩ := by simp [giveUp, orphaned]
  refine ⟨⟨_, htask, .leftEarly name call ⟨?_, ?_⟩ haccount.ticket ?_⟩,
    hposts.imp fun _ h => h.elim, ?_⟩
  · intro e hmem
    rw [hqueue e (hqueue' hmem)]
  · intro q hmem
    rcases hserved q hmem with hnone | hq
    · cases hnone
    · rw [hq]
  · intro e hmem
    cases haccount with
    | sending hidle hpast =>
        refine ⟨hpast, ?_⟩
        apply List.eq_nil_iff_forall_not_mem.mpr
        intro e' hmem'
        have hnone := hqueue' hmem'
        rw [hidle.queue] at hnone
        cases hnone
    | queued | answered | lost => cases hmem
  · intro id hmem
    have hmem' : id ∈ x.orphans ++ [] := hmem
    exact Or.inl (by simpa using hmem')

/-- The registration is given up with its slot. -/
theorem turned_leaveLate {name : String} {stage : Registration L} {handle : Handle}
    (howns : x.Owns t handle) (hstage : stage.handle? = some handle) (hsane : x.broker.Sane) :
    Turned x (x.giveUp t (.registering name stage)) t ended := by
  obtain ⟨b, hkept, hgiven⟩ := Registration.giveUp_of_handle hstage x.broker
  have hne : (⟨stage.ticket.task + 1, stage.ticket.serial⟩ : Ticket) ≠ stage.ticket := fun heq =>
    absurd (congrArg Ticket.task heq) (Nat.succ_ne_self _)
  have hclosed := (Registration.spares_giveUp x.broker hne).isClosed
  have hposts : Broker.Posts (· = ⟨.discard handle.id, none⟩) x.broker
      (Registration.giveUp x.broker stage).1.flushed := by
    have habandoned : Broker.Posts (· = ⟨.discard handle.id, none⟩) b
        (Registration.abandonSlot b handle).1 := Registration.posts_abandonSlot b rfl
    rw [hgiven]
    exact (hkept.imp fun _ h => h.elim).trans (habandoned.trans (.flush _))
  have htask : (x.giveUp t (.registering name stage)).tasks t =
      some ⟨.registering name stage, true⟩ := by simp [giveUp, orphaned]
  have hforsaken : (x.giveUp t (.registering name stage)).Forsaken handle.id :=
    ⟨t, handle, howns.issued, rfl, Or.inr ⟨name, stage, htask, by simp [hstage]⟩⟩
  refine ⟨⟨_, htask, .leftLate name handle stage (howns.posts rfl hposts ?_) hstage ?_⟩,
    hposts.imp ?_, ?_⟩
  · rintro e rfl
    rfl
  · intro hopen
    have hopen' : b.mailbox.isOpen = true := by
      rw [hkept.isOpen]
      by_contra hshut
      have hclosed' := hclosed (hsane.mailbox (by simpa using hshut))
      have hopen'' : (Registration.giveUp x.broker stage).1.isClosed = false := hopen
      rw [hclosed'] at hopen''
      cases hopen''
    rcases Registration.abandonSlot_posts hopen' handle with hmem | horphan
    · rw [← hgiven] at hmem
      exact Or.inl ⟨_, List.mem_append_right _ hmem, rfl⟩
    · rw [← hgiven] at horphan
      right
      have hmem : handle.id ∈ x.orphans ++ (Registration.giveUp x.broker stage).2.toList := by
        simp [horphan]
      exact hmem
  · rintro e rfl
    exact hforsaken
  · intro id hmem
    have hmem' : id ∈ x.orphans ++ (Registration.giveUp x.broker stage).2.toList := hmem
    rcases List.mem_append.mp hmem' with hold | hnew
    · exact Or.inl hold
    · rw [hgiven] at hnew
      rw [Registration.orphan_abandonSlot b handle id (by simpa using hnew)]
      exact Or.inr hforsaken

/-- A task that does not concern a slot goes on. -/
theorem turned_goOn {a : Activity L} (htask : x.tasks t = some ⟨a, false⟩) (hplain : a.IsPlain)
    (hasks : x.Asks t Command.IsPlain) (hmessage : ∀ e ∈ a.message?, e.command.IsPlain) :
    Turned x (x.goOn t a) t ended := by
  cases a with
  | firing event call =>
      refine turned_dispatching hasks (Dispatch.posts_resume _ _ hmessage) ?_
      intro e hmem
      exact hmessage e (Broker.message_resume _ _ e (Dispatch.message_asked _ _ e hmem))
  | subscribing service listener call =>
      refine turned_subscribing hasks (Broker.Posts.resume _ hmessage) ?_
      exact fun e hmem => hmessage e (Broker.message_resume _ _ e hmem)
  | listing call =>
      refine turned_listing hasks (Broker.Posts.resume _ hmessage) ?_
      exact fun e hmem => hmessage e (Broker.message_resume _ _ e hmem)
  | registering name stage => exact hplain.elim
  | registered name result => exact hplain.elim
  | discarding id => exact hplain.elim
  | discarded id => exact hplain.elim
  | _ => exact .same htask (.other _ _ hplain hasks hmessage)

theorem Turned.of_note {noted : Delivery L} (h : Turned (x.note t noted) x' t ended) :
    Turned x x' t ended := ⟨h.task, h.posts, h.orphans⟩

theorem turned_listenerEnded {a : Activity L} (htask : x.tasks t = some ⟨a, false⟩)
    (hplain : a.IsPlain) (hasks : x.Asks t Command.IsPlain)
    (hmessage : ∀ e ∈ a.message?, e.command.IsPlain) (verdict : Verdict) :
    Turned x (x.listenerEnded t verdict a) t ended := by
  cases a with
  | delivering d s =>
      have hturned (noted : Delivery L) (v : Verdict) : Turned (x.note t noted)
          ((x.note t noted).dispatching t d.event (Dispatch.ended x.broker d s v)) t ended := by
        have hasks' : (x.note t noted).Asks t Command.IsPlain := ⟨hasks.queue, hasks.served⟩
        refine turned_dispatching hasks' (Dispatch.posts_ended x.broker d s v) ?_
        rw [Dispatch.ended, Dispatch.message_advance]
        simp
      exact (hturned _ _).of_note
  | _ => exact .same htask (.other _ _ hplain hasks hmessage)

theorem turned_leave {a : Activity L} {b : Broker L} (hplain : a.IsPlain)
    (hasks : x.Asks t Command.IsPlain) (hmessage : ∀ e ∈ a.message?, e.command.IsPlain)
    (hposts : Broker.Posts (fun e => e.command.IsPlain) x.broker b) :
    Turned x (x.leave t b a) t ended :=
  turned_plain (leave_tasks _ _ _ _) rfl rfl (hposts.trans (.flush b)) hplain hasks hmessage

theorem turned_giveUp {a : Activity L} (htask : x.tasks t = some ⟨a, false⟩) (hplain : a.IsPlain)
    (hasks : x.Asks t Command.IsPlain) (hmessage : ∀ e ∈ a.message?, e.command.IsPlain) :
    Turned x (x.giveUp t a) t ended := by
  cases a with
  | firing event call => exact turned_leave trivial hasks hmessage (.giveUp _ call)
  | delivering d s => exact turned_leave trivial hasks hmessage (.refl _)
  | subscribing service listener call =>
      exact turned_leave trivial hasks hmessage (.giveUp _ call)
  | listing call => exact turned_leave trivial hasks hmessage (.giveUp _ call)
  | registering name stage => exact hplain.elim
  | _ => exact .same htask (.other _ _ hplain hasks hmessage)

/-- Any turn of a task that does not concern a slot. -/
theorem turned_other {a : Activity L} (htask : x.tasks t = some ⟨a, false⟩) (hplain : a.IsPlain)
    (hasks : x.Asks t Command.IsPlain) (hmessage : ∀ e ∈ a.message?, e.command.IsPlain)
    (turn : Turn L) : Turned x (x.act t a turn) t ended := by
  cases turn with
  | begin s => exact .same htask (.other _ _ hplain hasks hmessage)
  | goOn => exact turned_goOn htask hplain hasks hmessage
  | listenerEnded verdict => exact turned_listenerEnded htask hplain hasks hmessage verdict
  | setUpEnded outcome =>
      cases a with
      | registering name stage => exact hplain.elim
      | _ => exact .same htask (.other _ _ hplain hasks hmessage)
  | giveUp => exact turned_giveUp htask hplain hasks hmessage

/-- A task begins, or there was nothing to begin with. -/
theorem turned_start (h : x.Unused t) (hended : ∀ h f, ¬ ended h f) (s : Start L) :
    Turned x (x.start t s) t ended ∨ x.start t s = x := by
  have hasks : x.Asks t Command.IsPlain := ⟨by simp [h.idle.queue], by simp [h.served]⟩
  have hcall {c : Command L} (hc : c.IsPlain) :
      ∀ e ∈ (x.broker.call t c).2.message?, e.command.IsPlain := by
    intro e hmem
    rw [Broker.message_call _ _ _ e hmem]
    exact hc
  cases s with
  | fire event =>
      refine Or.inl (turned_dispatching hasks (Dispatch.posts_start _ t event) ?_)
      intro e hmem
      have hplain : (Command.snapshot event.kind : Command L).IsPlain := trivial
      exact hcall hplain e (Dispatch.message_asked _ _ e hmem)
  | register name =>
      left
      have hidle : (x.broker.note .debug "attempting to register service"
          [("service", name)]).Idle t := h.idle.spared (.note _ _ _ _)
      exact turned_reserved (hidle.call h.served _)
        ((Broker.Posts.note _ _ _ _).trans (.call _ t _))
        (fun _ => Broker.closed_of_call) hended
  | subscribe service listener =>
      have hplain : (Command.subscribe service listener).IsPlain := trivial
      exact Or.inl (turned_subscribing hasks (.call _ t _) (hcall hplain))
  | list =>
      have hplain : (Command.services : Command L).IsPlain := trivial
      exact Or.inl (turned_listing hasks (.call _ t _) (hcall hplain))
  | discard id =>
      simp only [start]
      split
      · rename_i horphan
        left
        have hasks' : (x.put t x.broker (.discarding id)).Asks t Command.IsPlain :=
          ⟨hasks.queue, hasks.served⟩
        exact ⟨⟨_, put_tasks _ _ _ _, .posting id hasks' horphan⟩, .flush _,
          fun _ hmem => Or.inl hmem⟩
      · exact Or.inr rfl

end Turns

end Traffic

end EventHub
