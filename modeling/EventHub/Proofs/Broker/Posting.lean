import EventHub.Proofs.Broker.Account

/-!
What an action puts into the mailbox. A call posts its own command and nothing else, a
registration that is given up posts the discard of its slot, and no action tells anybody
that there will be no answer: that is left to the registry when it stops.
-/

namespace EventHub

variable {L : Type}

namespace Mailbox

variable {α : Type}

@[simp] theorem isOpen_handOn (m : Mailbox α) : m.handOn.1.isOpen = m.isOpen := by
  simp only [handOn]
  split <;> rfl

theorem isOpen_send (m : Mailbox α) (sender : Ticket) (a : α) :
    (m.send sender a).1.isOpen = m.isOpen := by
  simp only [send]
  split <;> [skip; split <;> [skip; split <;> [skip; split]]] <;> rfl

theorem isOpen_offer (m : Mailbox α) (a : α) : (m.offer a).1.isOpen = m.isOpen := by
  simp only [offer]
  split <;> [skip; split] <;> rfl

theorem isOpen_leave (m : Mailbox α) (sender : Ticket) :
    (m.leave sender).1.isOpen = m.isOpen := by
  simp only [leave]
  split <;> simp

theorem send_refused {m : Mailbox α} {sender : Ticket} {a : α}
    (h : (m.send sender a).2 = .refused) : m.isOpen = false := by
  simp only [send] at h
  split at h
  · rename_i hclosed
    simpa using hclosed
  · split at h <;> [skip; split at h <;> [skip; split at h]] <;> cases h

theorem offer_refused {m : Mailbox α} {a : α} (h : (m.offer a).2 = .refused) :
    m.isOpen = false := by
  simp only [offer] at h
  split at h
  · rename_i hclosed
    simpa using hclosed
  · split at h <;> cases h

end Mailbox

/-- What a call has not posted yet. -/
def Call.message? : Call L → Option (Envelope L)
  | .sending t c => some ⟨c, some t⟩
  | .awaiting _ => none

def Called.message? : Called L → Option (Envelope L)
  | .suspended call => call.message?
  | .finished _ => none

namespace Broker

/-- Nothing but these messages is posted, and nobody is told that there will be no
answer. -/
structure Posts (messages : Envelope L → Prop) (b b' : Broker L) : Prop where
  queue : ∃ added, b'.mailbox.queue = b.mailbox.queue ++ added ∧ ∀ e ∈ added, messages e
  isOpen : b'.mailbox.isOpen = b.mailbox.isOpen
  lost : ∀ t, b'.replies.lookup t = some .lost → b.replies.lookup t = some .lost

namespace Posts

variable {messages other : Envelope L → Prop} {b b' b'' : Broker L}

theorem of_eq (hmailbox : b'.mailbox = b.mailbox) (hreplies : b'.replies = b.replies) :
    Posts messages b b' where
  queue := ⟨[], by simp [hmailbox], by simp⟩
  isOpen := by rw [hmailbox]
  lost t h := by rwa [hreplies] at h

theorem refl (b : Broker L) : Posts messages b b := of_eq rfl rfl

theorem trans (h : Posts messages b b') (h' : Posts messages b' b'') : Posts messages b b'' where
  queue := by
    obtain ⟨first, hfirst, hposted⟩ := h.queue
    obtain ⟨second, hsecond, hposted'⟩ := h'.queue
    refine ⟨first ++ second, by rw [hsecond, hfirst, List.append_assoc], ?_⟩
    intro e hmem
    rcases List.mem_append.mp hmem with hmem | hmem
    · exact hposted e hmem
    · exact hposted' e hmem
  isOpen := h'.isOpen.trans h.isOpen
  lost t hlost := h.lost t (h'.lost t hlost)

theorem imp (h : Posts messages b b') (himp : ∀ e, messages e → other e) : Posts other b b' where
  queue := by
    obtain ⟨added, hadded, hposted⟩ := h.queue
    exact ⟨added, hadded, fun e hmem => himp e (hposted e hmem)⟩
  isOpen := h.isOpen
  lost := h.lost

/-- What is in the mailbox afterwards was there or is one of the messages. -/
theorem of_mem (h : Posts messages b b') {e : Envelope L} (hmem : e ∈ b'.mailbox.queue) :
    e ∈ b.mailbox.queue ∨ messages e := by
  obtain ⟨added, hadded, hposted⟩ := h.queue
  rw [hadded] at hmem
  rcases List.mem_append.mp hmem with hmem | hmem
  · exact Or.inl hmem
  · exact Or.inr (hposted e hmem)

theorem mem (h : Posts messages b b') {e : Envelope L} (hmem : e ∈ b.mailbox.queue) :
    e ∈ b'.mailbox.queue := by
  obtain ⟨added, hadded, -⟩ := h.queue
  rw [hadded]
  exact List.mem_append_left _ hmem

theorem wake (b : Broker L) (ts : List Ticket) : Posts messages b (b.wake ts) := of_eq rfl rfl

theorem flush (b : Broker L) : Posts messages b b.flushed := of_eq rfl rfl

theorem note (b : Broker L) (level : Level) (message : String) (fields : List (String × String)) :
    Posts messages b (b.note level message fields) := of_eq rfl rfl

theorem close (b : Broker L) : Posts messages b b.close := by
  rw [Broker.close]
  split
  · exact refl b
  · exact of_eq rfl rfl

/-- One message goes into the mailbox, if there is room. -/
theorem mailbox {mailbox : Mailbox (Envelope L)} {added : List (Envelope L)}
    (hqueue : mailbox.queue = b.mailbox.queue ++ added) (hopen : mailbox.isOpen = b.mailbox.isOpen)
    (hadded : ∀ e ∈ added, messages e) : Posts messages b { b with mailbox } :=
  ⟨⟨added, hqueue, hadded⟩, hopen, fun _ h => h⟩

theorem send (b : Broker L) (sender : Ticket) {e : Envelope L} (h : messages e) :
    Posts messages b { b with mailbox := (b.mailbox.send sender e).1 } := by
  apply mailbox (b.mailbox.queue_send sender e) (b.mailbox.isOpen_send sender e)
  intro e' hmem
  split at hmem
  · rw [List.mem_singleton.mp hmem]
    exact h
  · cases hmem

theorem offer (b : Broker L) {e : Envelope L} (h : messages e) :
    Posts messages b { b with mailbox := (b.mailbox.offer e).1 } := by
  apply mailbox (b.mailbox.queue_offer e) (b.mailbox.isOpen_offer e)
  intro e' hmem
  split at hmem
  · rw [List.mem_singleton.mp hmem]
    exact h
  · cases hmem

theorem leave (b : Broker L) (sender : Ticket) :
    Posts messages b { b with mailbox := (b.mailbox.leave sender).1 } := by
  have hqueue : (b.mailbox.leave sender).1.queue = b.mailbox.queue ++ [] := by simp
  exact mailbox hqueue (b.mailbox.isOpen_leave sender) (by simp)

/-- A caller is told something, but not that its command was dropped. -/
theorem setReply (b : Broker L) (t : Ticket) {reply : Reply L} (h : reply ≠ .lost) :
    Posts messages b (b.setReply t reply) where
  queue := ⟨[], by simp [Broker.setReply], by simp⟩
  isOpen := rfl
  lost u hlost := by
    rw [lookup_setReply] at hlost
    split at hlost
    · cases hreply : b.replies.lookup t with
      | none =>
          rw [hreply] at hlost
          cases hlost
      | some old =>
          rw [hreply] at hlost
          exact absurd (Option.some.inj hlost) h
    · exact hlost

theorem await (b : Broker L) (t : Ticket) : Posts messages b (b.await t) where
  queue := ⟨[], by simp [Broker.await], by simp⟩
  isOpen := rfl
  lost u hlost := by
    simp only [Broker.await, List.lookup_append] at hlost
    cases hreply : b.replies.lookup u with
    | some reply => simpa [hreply] using hlost
    | none =>
        by_cases heq : u = t
        · subst heq
          simp [hreply] at hlost
        · have hb : (u == t) = false := by simpa using heq
          simp [hreply, List.lookup_cons, hb] at hlost

theorem forget (b : Broker L) (t : Ticket) :
    Posts messages b { b with replies := b.replies.filter (·.1 ≠ t) } where
  queue := ⟨[], by simp, by simp⟩
  isOpen := rfl
  lost u hlost := by
    rw [Lookup.lookup_filter_ne] at hlost
    split at hlost
    · cases hlost
    · exact hlost

theorem listen (b : Broker L) (t : Ticket) : Posts messages b (b.listen t) := by
  rw [Broker.listen]
  split
  · exact setReply b t (by simp)
  · exact refl b

theorem call (b : Broker L) (t : Ticket) (c : Command L) :
    Posts messages b (b.call t c).1 := by
  rw [Broker.call]
  split <;> exact refl b

theorem settlePost (b : Broker L) (t : Ticket) (c : Command L) (posted : Mailbox.Posted) :
    Posts messages b (b.settlePost t c posted).1 := by
  cases posted with
  | accepted => exact (await b t).trans (wake _ _)
  | waits => exact refl b
  | refused => exact refl b

/-- A call posts its own command. -/
theorem resume (b : Broker L) {call : Call L} (h : ∀ e ∈ call.message?, messages e) :
    Posts messages b (b.resume call).1 := by
  cases call with
  | sending t c => exact (send b t (h _ rfl)).trans (settlePost _ t c _)
  | awaiting t =>
      simp only [Broker.resume]
      split
      · exact listen b t
      · exact refl b
      · exact forget b t
      · exact forget b t

theorem giveUp (b : Broker L) (call : Call L) : Posts messages b (b.giveUp call) := by
  cases call with
  | sending t c => exact (leave b t).trans (wake _ _)
  | awaiting t => exact forget b t

end Posts

theorem message_call (b : Broker L) (t : Ticket) (c : Command L) :
    ∀ e ∈ (b.call t c).2.message?, e = ⟨c, some t⟩ := by
  rw [call]
  split <;> simp [Called.message?, Call.message?]

/-- A suspended call has nothing else to post than it had. -/
theorem message_resume (b : Broker L) (call : Call L) :
    ∀ e ∈ (b.resume call).2.message?, e ∈ call.message? := by
  cases call with
  | sending t c =>
      cases hposted : b.mailbox.send t ⟨c, some t⟩ with
      | mk mailbox posted =>
          simp only [resume, hposted]
          cases posted <;> simp [settlePost, Called.message?, Call.message?]
  | awaiting t =>
      simp only [resume]
      split <;> simp [Called.message?, Call.message?]

/-- As long as a broker is open, its mailbox is, and everybody who waits will have an
answer. -/
structure Sane (b : Broker L) : Prop where
  mailbox : b.mailbox.isOpen = false → b.isClosed = true
  lost : ∀ t, b.replies.lookup t = some .lost → b.isClosed = true

theorem Sane.posts {b b' : Broker L} {messages : Envelope L → Prop} (h : b.Sane)
    (hposts : Posts messages b b') (hclosed : b.isClosed = true → b'.isClosed = true) :
    b'.Sane where
  mailbox hopen := hclosed (h.mailbox (hposts.isOpen ▸ hopen))
  lost t hlost := hclosed (h.lost t (hposts.lost t hlost))

/-- What is sent is in the mailbox then, or has to wait for room, or the broker is closed. -/
theorem Sane.send {b : Broker L} (h : b.Sane) {sender : Ticket} {e : Envelope L}
    {mailbox : Mailbox (Envelope L)} {posted : Mailbox.Posted}
    (hposted : b.mailbox.send sender e = (mailbox, posted)) :
    Posts (fun e' => posted = .accepted ∧ e' = e) b { b with mailbox } ∧
      (posted = .accepted → e ∈ mailbox.queue) ∧ (posted = .refused → b.isClosed = true) := by
  have hqueue := b.mailbox.queue_send sender e
  have hopen := b.mailbox.isOpen_send sender e
  have hrefused := @Mailbox.send_refused _ b.mailbox sender e
  simp only [hposted] at hqueue hopen hrefused
  refine ⟨Posts.mailbox hqueue hopen ?_, ?_, fun hshut => h.mailbox (hrefused hshut)⟩
  · intro e' hmem
    split at hmem
    · rename_i haccepted
      exact ⟨haccepted, List.mem_singleton.mp hmem⟩
    · cases hmem
  · rintro rfl
    simp [hqueue]

/-- An open broker's registry takes the oldest command, if there is one. -/
theorem step_of_open {b : Broker L} (hopen : b.isClosed = false) :
    (b.step = b ∧ b.serving = []) ∨
    ∃ e rest mailbox woken, b.mailbox.queue = e :: rest ∧ mailbox.queue = rest ∧
      mailbox.isOpen = b.mailbox.isOpen ∧ b.step = ({ b with mailbox }.wake woken).serve e ∧
      b.serving = [⟨e.caller, ⟨e.command, b.isAwaited e.caller⟩⟩] := by
  cases hstopped : b.hasStopped with
  | true => exact Or.inl ⟨by simp [step, hstopped], by simp [serving, hstopped]⟩
  | false =>
      cases hqueue : b.mailbox.queue with
      | nil =>
          exact Or.inl ⟨by simp [step, hstopped, hopen, Mailbox.receive, hqueue],
            by simp [serving, hqueue]⟩
      | cons e rest =>
          let handed := Mailbox.handOn { b.mailbox with queue := rest }
          refine Or.inr ⟨e, rest, handed.1, handed.2, rfl, Mailbox.queue_handOn _,
            Mailbox.isOpen_handOn _, ?_, ?_⟩
          · simp [step, hstopped, hopen, Mailbox.receive, hqueue, handed]
          · simp [serving, hstopped, hopen, hqueue]

/-- Everything that the registry takes was posted, and nobody waits for what has no
caller. -/
theorem mem_of_serving {b : Broker L} {s : Served L} (hmem : s ∈ b.serving) :
    ⟨s.request.command, s.caller⟩ ∈ b.mailbox.queue ∧
      (s.request.callerWaits = true → s.caller ≠ none) := by
  simp only [serving] at hmem
  split at hmem
  · cases hmem
  · obtain ⟨e, he, rfl⟩ := List.mem_map.mp hmem
    refine ⟨List.mem_of_mem_take he, ?_⟩
    intro hwaits hnone
    have hnobody : e.caller = none := hnone
    simp [hnobody, isAwaited] at hwaits

theorem queue_step_subset (b : Broker L) : ∀ e ∈ b.step.mailbox.queue, e ∈ b.mailbox.queue := by
  rcases b.step_cases with ⟨hstep, -⟩ | ⟨-, hstep, -⟩ |
    ⟨e, rest, mailbox, woken, -, -, hqueue, hmailbox, hstep, -⟩
  · rw [hstep]
    exact fun _ h => h
  · rw [hstep, mailbox_stop]
    simp [Mailbox.close]
  · obtain ⟨-, hmailbox', -⟩ := serve_spec ({ b with mailbox }.wake woken) e ⟨0, 0⟩
    rw [hstep, hmailbox', hqueue]
    intro e' hmem
    have hmem' : e' ∈ mailbox.queue := hmem
    exact List.mem_cons_of_mem _ (hmailbox ▸ hmem')

end Broker

namespace Dispatch

variable {messages : Envelope L → Prop}

theorem posts_advance (b : Broker L) (d : Dispatch L) :
    Broker.Posts messages b (advance b d).1 := by
  rw [advance]
  split
  · exact .refl b
  · exact .note b _ _ _

theorem posts_asked (event : Event) (p : Broker L × Called L) :
    Broker.Posts messages p.1 (asked event p).1 := by
  rw [asked.eq_def]
  split
  · exact .refl _
  · exact posts_advance _ _
  · exact .refl _
  · exact .refl _

theorem posts_start (b : Broker L) (t : Ticket) (event : Event) :
    Broker.Posts messages b (start b t event).1 :=
  (Broker.Posts.call b t _).trans (posts_asked event _)

theorem posts_resume (b : Broker L) (event : Event) {call : Call L}
    (h : ∀ e ∈ call.message?, messages e) : Broker.Posts messages b (resume b event call).1 :=
  (Broker.Posts.resume b h).trans (posts_asked event _)

theorem posts_ended (b : Broker L) (d : Dispatch L) (s : Subscription L) (verdict : Verdict) :
    Broker.Posts messages b (ended b d s verdict).1 := by
  have hsettle : Broker.Posts messages b (settle b d s verdict).1 := by
    rw [settle]
    split
    · exact .refl b
    · exact .note b _ _ _
  exact hsettle.trans (posts_advance _ _)

end Dispatch

namespace Registration

variable {messages : Envelope L → Prop}

/-- What is posted for a slot that is given up, at most. -/
theorem posts_abandonSlot (b : Broker L) {handle : Handle}
    (h : messages ⟨.discard handle.id, none⟩) :
    Broker.Posts messages b (abandonSlot b handle).1 := by
  have hoffer : Broker.Posts messages (b.note .warn
      "registration abandoned before admission; discarding" [("service", handle.text)]) _ :=
    .offer _ h
  simp only [abandonSlot]
  split
  · exact (Broker.Posts.note b _ _ _).trans (hoffer.trans (.wake _ _))
  · exact .note b _ _ _
  · exact .note b _ _ _

theorem orphan_abandonSlot (b : Broker L) (handle : Handle) :
    ∀ id ∈ (abandonSlot b handle).2, id = handle.id := by
  simp only [abandonSlot]
  split <;> simp [eq_comm]

/-- The discard of a slot that is given up is in the mailbox, or left to somebody. -/
theorem abandonSlot_posts {b : Broker L} (hopen : b.mailbox.isOpen = true) (handle : Handle) :
    ⟨.discard handle.id, none⟩ ∈ (abandonSlot b handle).1.mailbox.queue ∨
      (abandonSlot b handle).2 = some handle.id := by
  have hqueue := b.mailbox.queue_offer ⟨.discard handle.id, none⟩
  have hrefused := @Mailbox.offer_refused _ b.mailbox ⟨.discard handle.id, none⟩
  simp only [abandonSlot]
  cases hposted : b.mailbox.offer ⟨.discard handle.id, none⟩ with
  | mk mailbox posted =>
      simp only [hposted] at hqueue hrefused
      cases posted with
      | accepted =>
          left
          have hnote : (b.note .warn "registration abandoned before admission; discarding"
            [("service", handle.text)]).mailbox.offer ⟨.discard handle.id, none⟩ =
              (mailbox, .accepted) := hposted
          simp only [hnote, Broker.wake, hqueue]
          simp
      | refused =>
          rw [hrefused rfl] at hopen
          cases hopen
      | waits =>
          right
          have hnote : (b.note .warn "registration abandoned before admission; discarding"
            [("service", handle.text)]).mailbox.offer ⟨.discard handle.id, none⟩ =
              (mailbox, .waits) := hposted
          simp only [hnote]

end Registration

end EventHub
