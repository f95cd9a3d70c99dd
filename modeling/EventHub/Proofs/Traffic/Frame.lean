import EventHub.Proofs.Traffic.Basic

/-!
A move of one task leaves every other task where it is: its own activity, what
is under way for its call, what happened on its behalf, and the books. It is the
calls inside an activity that reach the broker, so they have to be the task's own.
-/

namespace EventHub

variable {L : Type}

def Called.ticket? : Called L → Option Ticket
  | .suspended call => some call.ticket
  | .finished _ => none

def Registration.Next.ticket? : Registration.Next L → Option Ticket
  | .suspended r => some r.ticket
  | .setUp t _ => some t
  | .finished _ => none

/-- Under whose name an activity calls the broker. -/
def Activity.ticket? : Activity L → Option Ticket
  | .firing _ call => some call.ticket
  | .registering _ stage => some stage.ticket
  | .subscribing _ _ call => some call.ticket
  | .listing call => some call.ticket
  | _ => none

namespace Broker

theorem ticket_call (b : Broker L) (t : Ticket) (c : Command L) :
    ∀ u ∈ (b.call t c).2.ticket?, u = t := by
  rw [call]
  split <;> simp [Called.ticket?, Call.ticket]

theorem ticket_resume (b : Broker L) (call : Call L) :
    ∀ u ∈ (b.resume call).2.ticket?, u = call.ticket := by
  cases call with
  | sending t c =>
      cases hposted : b.mailbox.send t ⟨c, some t⟩ with
      | mk mailbox posted =>
          simp only [resume, hposted]
          cases posted <;> simp [settlePost, Called.ticket?, Call.ticket]
  | awaiting t =>
      simp only [resume]
      split <;> simp [Called.ticket?, Call.ticket]

end Broker

namespace Registration

theorem ticket_reserved (name : String) {t : Ticket} {p : Broker L × Called L}
    (h : ∀ u ∈ p.2.ticket?, u = t) : ∀ u ∈ (reserved name t p).next.ticket?, u = t := by
  rw [reserved.eq_def]
  split
  · exact h
  · simp [Next.ticket?]
  · simp [Next.ticket?]
  · simp [Next.ticket?]

theorem ticket_confirmed (handle : Handle) {t : Ticket} {p : Broker L × Called L}
    (h : ∀ u ∈ p.2.ticket?, u = t) : ∀ u ∈ (confirmed handle p).next.ticket?, u = t := by
  rw [confirmed.eq_def]
  split
  · exact h
  · simp [Next.ticket?]
  · simp [Next.ticket?, refused]
  · simp [Next.ticket?, refused]
  · simp [Next.ticket?, refused]

theorem ticket_start (b : Broker L) (t : Ticket) (name : String) :
    ∀ u ∈ (start b t name).next.ticket?, u = t :=
  ticket_reserved name (Broker.ticket_call _ t _)

theorem ticket_setUpEnded (b : Broker L) (t : Ticket) (handle : Handle)
    (outcome : Outcome (Except ServiceError Unit)) :
    ∀ u ∈ (setUpEnded b t handle outcome).next.ticket?, u = t := by
  simp only [setUpEnded]
  split
  · exact ticket_confirmed handle (Broker.ticket_call b t _)
  · simp [Next.ticket?, ticket]

theorem ticket_resume (b : Broker L) (r : Registration L) :
    ∀ u ∈ (resume b r).next.ticket?, u = r.ticket := by
  cases r with
  | reserving name call =>
      cases call <;> exact ticket_reserved name (Broker.ticket_resume b _)
  | settingUp t handle => simp [resume, Next.ticket?, ticket]
  | discarding t handle reason =>
      cases hposted : b.mailbox.send t ⟨.discard handle.id, none⟩ with
      | mk mailbox posted =>
          simp only [resume, hposted]
          cases posted <;> simp [discarded, Next.ticket?, ticket]
  | confirming handle call => exact ticket_confirmed handle (Broker.ticket_resume b call)

end Registration

namespace Traffic

/-- Nothing has changed for this task, the books are the same, and a slot that
nobody decides stays one. -/
structure Leaves (t : Ticket) (x x' : Traffic L) : Prop where
  broker : Broker.Spares t x.broker x'.broker
  task : x'.tasks t = x.tasks t
  served : x'.served = x.served
  deliveries : x'.deliveries t = x.deliveries t
  orphans : x.orphans ⊆ x'.orphans

namespace Leaves

variable {t u : Ticket}

theorem refl (t : Ticket) (x : Traffic L) : Leaves t x x :=
  ⟨.refl t _, rfl, rfl, rfl, List.Subset.refl _⟩

theorem trans {x x' x'' : Traffic L} (h : Leaves t x x') (h' : Leaves t x' x'') :
    Leaves t x x'' where
  broker := h.broker.trans h'.broker
  task := h'.task.trans h.task
  served := h'.served.trans h.served
  deliveries := h'.deliveries.trans h.deliveries
  orphans := List.Subset.trans h.orphans h'.orphans

theorem put {x : Traffic L} (hne : t ≠ u) {b : Broker L} (hspares : Broker.Spares t x.broker b)
    (a : Activity L) : Leaves t x (x.put u b a) where
  broker := hspares.trans (.flush b)
  task := by simp [Traffic.put, hne]
  served := rfl
  deliveries := rfl
  orphans := List.Subset.refl _

theorem leave {x : Traffic L} (hne : t ≠ u) {b : Broker L} (hspares : Broker.Spares t x.broker b)
    (a : Activity L) : Leaves t x (x.leave u b a) where
  broker := hspares.trans (.flush b)
  task := by simp [Traffic.leave, hne]
  served := rfl
  deliveries := rfl
  orphans := List.Subset.refl _

theorem note (x : Traffic L) (hne : t ≠ u) (d : Delivery L) : Leaves t x (x.note u d) where
  broker := .refl t _
  task := rfl
  served := rfl
  deliveries := x.deliveries_note_other hne d
  orphans := List.Subset.refl _

theorem orphaned (x : Traffic L) (orphan : Option ServiceId) : Leaves t x (x.orphaned orphan) :=
  ⟨.refl t _, rfl, rfl, rfl, List.subset_append_left _ _⟩

theorem dispatching (x : Traffic L) (hne : t ≠ u) (event : Event)
    {p : Broker L × Dispatch.Next L} (hspares : Broker.Spares t x.broker p.1) :
    Leaves t x (x.dispatching u event p) := by
  obtain ⟨b, next⟩ := p
  cases next with
  | asking event call => exact .put hne hspares _
  | deliver s rest => exact (Leaves.put hne hspares _).trans (.note _ hne _)
  | finished result => exact .put hne hspares _

theorem registering (x : Traffic L) (hne : t ≠ u) (name : String) {r : Registration.Result L}
    (hspares : Broker.Spares t x.broker r.broker) : Leaves t x (x.registering u name r) :=
  (Leaves.put hne hspares _).trans (.orphaned _ _)

theorem subscribing (x : Traffic L) (hne : t ≠ u) (service : Handle) (listener : Listener L)
    {p : Broker L × Called L} (hspares : Broker.Spares t x.broker p.1) :
    Leaves t x (x.subscribing u service listener p) := by
  obtain ⟨b, called⟩ := p
  cases called <;> exact .put hne hspares _

theorem listing (x : Traffic L) (hne : t ≠ u) {p : Broker L × Called L}
    (hspares : Broker.Spares t x.broker p.1) : Leaves t x (x.listing u p) := by
  obtain ⟨b, called⟩ := p
  cases called <;> exact .put hne hspares _

theorem posting (x : Traffic L) (hne : t ≠ u) (id : ServiceId) :
    Leaves t x (x.posting u id (x.broker.mailbox.send u ⟨.discard id, none⟩)) := by
  have hcaller : (⟨.discard id, none⟩ : Envelope L).caller ≠ some t := by simp
  have hspares := Broker.Spares.send x.broker u hcaller
  cases hposted : x.broker.mailbox.send u ⟨.discard id, none⟩ with
  | mk mailbox posted =>
      rw [hposted] at hspares
      cases posted with
      | accepted => exact .put hne (hspares.trans (.wake _ _)) _
      | waits => exact .put hne hspares _
      | refused => exact .put hne hspares _

theorem start (x : Traffic L) (hne : t ≠ u) (s : Start L) : Leaves t x (x.start u s) := by
  cases s with
  | fire event => exact .dispatching x hne event (Dispatch.spares_start _ u event)
  | register name => exact .registering x hne name (Registration.spares_start _ u name)
  | subscribe service listener =>
      exact .subscribing x hne service listener (Broker.Spares.call _ u _)
  | list => exact .listing x hne (Broker.Spares.call _ u _)
  | discard id =>
      simp only [Traffic.start]
      split
      · exact .put hne (.refl t _) _
      · exact .refl t x

theorem goOn (x : Traffic L) (hne : t ≠ u) {a : Activity L} (hown : ∀ v ∈ a.ticket?, v = u) :
    Leaves t x (x.goOn u a) := by
  have hother : ∀ v ∈ a.ticket?, t ≠ v := fun v hv => hown v hv ▸ hne
  cases a with
  | firing event call =>
      exact .dispatching x hne event (Dispatch.spares_resume _ event (hother _ rfl))
  | registering name stage =>
      exact .registering x hne name (Registration.spares_resume _ (hother _ rfl))
  | subscribing service listener call =>
      exact .subscribing x hne service listener (Broker.Spares.resume _ (hother _ rfl))
  | listing call => exact .listing x hne (Broker.Spares.resume _ (hother _ rfl))
  | discarding id => exact .posting x hne id
  | _ => exact .refl t x

theorem listenerEnded (x : Traffic L) (hne : t ≠ u) (verdict : Verdict) (a : Activity L) :
    Leaves t x (x.listenerEnded u verdict a) := by
  cases a with
  | delivering d s =>
      exact (Leaves.note x hne _).trans
        (.dispatching _ hne d.event (Dispatch.spares_ended x.broker d s _))
  | _ => exact .refl t x

theorem setUpEnded (x : Traffic L) (hne : t ≠ u) (outcome : Outcome (Except ServiceError Unit))
    (a : Activity L) : Leaves t x (x.setUpEnded u outcome a) := by
  cases a with
  | registering name stage =>
      cases stage with
      | settingUp owner handle =>
          exact .registering x hne name (Registration.spares_setUpEnded _ owner handle outcome)
      | _ => exact .refl t x
  | _ => exact .refl t x

theorem giveUp (x : Traffic L) (hne : t ≠ u) {a : Activity L} (hown : ∀ v ∈ a.ticket?, v = u) :
    Leaves t x (x.giveUp u a) := by
  have hother : ∀ v ∈ a.ticket?, t ≠ v := fun v hv => hown v hv ▸ hne
  cases a with
  | firing event call => exact .leave hne (.giveUp _ (hother _ rfl)) _
  | delivering d s => exact .leave hne (.refl t _) _
  | registering name stage =>
      exact (Leaves.leave hne (Registration.spares_giveUp _ (hother _ rfl)) _).trans
        (.orphaned _ _)
  | subscribing service listener call => exact .leave hne (.giveUp _ (hother _ rfl)) _
  | listing call => exact .leave hne (.giveUp _ (hother _ rfl)) _
  | _ => exact .refl t x

theorem act (x : Traffic L) (hne : t ≠ u) {a : Activity L} (hown : ∀ v ∈ a.ticket?, v = u)
    (turn : Turn L) : Leaves t x (x.act u a turn) := by
  cases turn with
  | begin s => exact .refl t x
  | goOn => exact .goOn x hne hown
  | listenerEnded verdict => exact .listenerEnded x hne verdict a
  | setUpEnded outcome => exact .setUpEnded x hne outcome a
  | giveUp => exact .giveUp x hne hown

theorem close (x : Traffic L) : Leaves t x (x.step .close) :=
  ⟨(Broker.Spares.close x.broker).trans (.flush _), rfl, rfl, rfl, List.Subset.refl _⟩

end Leaves

/-- Everyone calls the broker under their own name. -/
def Owned (x : Traffic L) : Prop :=
  ∀ t a, x.tasks t = some ⟨a, false⟩ → ∀ u ∈ a.ticket?, u = t

/-- What another task does concerns nobody else. -/
theorem leaves_turn {x : Traffic L} (hown : x.Owned) {t u : Ticket} (hne : t ≠ u)
    (turn : Turn L) : Leaves t x (x.turn u turn) := by
  rw [Traffic.turn.eq_def]
  split
  · exact .start x hne _
  · exact .refl t x
  · rename_i hactivity
    exact .act x hne (hown u _ hactivity) _
  · exact .refl t x

/-- Only the registry changes the books, and nobody takes a slot back that was given
up. -/
theorem books_turn {x : Traffic L} (hown : x.Owned) (u : Ticket) (turn : Turn L) :
    (x.turn u turn).broker.registry = x.broker.registry ∧ (x.turn u turn).served = x.served ∧
      x.orphans ⊆ (x.turn u turn).orphans := by
  have hne : (⟨u.task + 1, u.serial⟩ : Ticket) ≠ u := fun heq =>
    absurd (congrArg Ticket.task heq) (Nat.succ_ne_self _)
  have hleaves := leaves_turn hown hne turn
  exact ⟨hleaves.broker.registry, hleaves.served, hleaves.orphans⟩

end Traffic

end EventHub
