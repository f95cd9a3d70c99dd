import EventHub.Proofs.Replay.Acts

/-!
The calls of a broker, one after another. For each kind of call: where the traffic has
the ticket when the computation waits, goes on with a listener or a setup, or ends.
-/

namespace EventHub

variable {L : Type}

/-- Where the traffic has a dispatch that has come so far. -/
def Dispatch.Next.activity (event : Event) : Dispatch.Next L → Activity L
  | .asking event call => .firing event call
  | .deliver s rest => .delivering rest s
  | .finished result => .fired event result

/-- Where the traffic has a registration that has come so far. -/
def Registration.Next.activity (name : String) : Registration.Next L → Activity L
  | .suspended stage => .registering name stage
  | .setUp owner handle => .registering name (.settingUp owner handle)
  | .finished result => .registered name result

namespace Traffic

theorem dispatching_spec (x : Traffic L) (t : Ticket) (event : Event)
    (p : Broker L × Dispatch.Next L) :
    (x.dispatching t event p).broker = p.1.flushed ∧
      (x.dispatching t event p).tasks t = some ⟨p.2.activity event, false⟩ := by
  obtain ⟨b, next⟩ := p
  cases next <;> exact ⟨rfl, put_tasks x t b _⟩

theorem registering_spec (x : Traffic L) (t : Ticket) (name : String)
    (r : Registration.Result L) :
    (x.registering t name r).broker = r.broker.flushed ∧
      (x.registering t name r).tasks t = some ⟨r.next.activity name, false⟩ ∧
      ∀ id ∈ r.orphan, id ∈ (x.registering t name r).orphans := by
  refine ⟨rfl, ?_, ?_⟩
  · obtain ⟨b, next, orphan⟩ := r
    cases next <;> exact put_tasks x t b _
  · intro id hid
    exact List.mem_append_right _ (by simpa using hid)

theorem subscribing_spec (x : Traffic L) (t : Ticket) (service : Handle) (listener : Listener L)
    (p : Broker L × Called L) :
    (x.subscribing t service listener p).broker = p.1.flushed ∧
      ∀ call, p.2 = .suspended call → (x.subscribing t service listener p).tasks t =
        some ⟨.subscribing service listener call, false⟩ := by
  obtain ⟨b, called⟩ := p
  cases called with
  | suspended call =>
      refine ⟨rfl, ?_⟩
      rintro _ ⟨⟩
      exact put_tasks _ _ _ _
  | finished result => exact ⟨rfl, by simp⟩

theorem listing_spec (x : Traffic L) (t : Ticket) (p : Broker L × Called L) :
    (x.listing t p).broker = p.1.flushed ∧
      ∀ call, p.2 = .suspended call → (x.listing t p).tasks t = some ⟨.listing call, false⟩ := by
  obtain ⟨b, called⟩ := p
  cases called with
  | suspended call =>
      refine ⟨rfl, ?_⟩
      rintro _ ⟨⟩
      exact put_tasks _ _ _ _
  | finished result => exact ⟨rfl, by simp⟩

end Traffic

namespace Simulation

open Script

variable {k i j : Nat} {x : Traffic Action} {ts : List Ticket}

section Carries

variable {shows : Activity Action → Prop}

theorem Carries.of_task {t : Ticket} {a : Activity Action} (hts : ts = [t])
    (htask : x.tasks t = some ⟨a, false⟩) (hshows : shows a) : Carries k x k shows ts := by
  rw [Carries, if_pos rfl]
  exact ⟨t, a, hts, htask, hshows⟩

theorem Carries.task (h : Carries k x k shows ts) :
    ∃ t a, ts = [t] ∧ x.tasks t = some ⟨a, false⟩ ∧ shows a := by
  rwa [Carries, if_pos rfl] at h

theorem Carries.other (hne : j ≠ k) : Carries k x j shows [] := by
  rw [Carries, if_neg hne]

theorem Carries.elim {p : Prop} (h : Carries k x k shows ts) (hnone : ∀ t, x.tasks t = none) :
    p := by
  obtain ⟨t, a, -, htask, -⟩ := h.task
  cases (hnone t).symm.trans htask

theorem Held.local_carries (k j : Nat) (shows : Activity Action → Prop) :
    Held.Local fun x => Carries k x j shows := fun _ _ _ h htasks => h.congr htasks

end Carries

namespace Sim

variable {P : Held}

/-- What a dispatch holds that has come so far. -/
def Dispatched (k j : Nat) : Dispatch.Next Action → Held
  | .asking event call => fun x => Carries k x j fun a => a = .firing event call
  | .deliver s rest => fun x => Carries k x j fun a => a = .delivering rest s
  | .finished _ => fun _ _ => True

theorem Dispatched.of_task {t : Ticket} {next : Dispatch.Next Action} {event : Event}
    (htask : x.tasks t = some ⟨next.activity event, false⟩) : Dispatched k k next x [t] := by
  cases next with
  | asking event call => exact Carries.of_task rfl htask rfl
  | deliver s rest => exact Carries.of_task rfl htask rfl
  | finished result => trivial

theorem Dispatched.other (hne : j ≠ k) (next : Dispatch.Next Action) :
    Dispatched k j next x [] := by
  cases next with
  | asking event call => exact Carries.other hne
  | deliver s rest => exact Carries.other hne
  | finished result => trivial

/-- A listener that is called, or refuses the event, holds nothing yet. -/
theorem plain_delivery (mismatch : Option ListenerError) (action : Action) (event : Event) :
    Future.Plain k (match mismatch with
      | some e => Future.value (a := .listener) (.error e)
      | none => .begin (.listener action event)) := by
  cases mismatch with
  | none => exact .begin rfl
  | some e => exact .value _

theorem plays_dispatched (deadline : Option Duration) (next : Dispatch.Next Action) :
    Plays k i (Dispatched k j next) (dispatched j deadline next) fun f x => f.Holds k x := by
  cases next with
  | asking event call => exact .pure fun _ _ h => h
  | finished result => exact .quit (.value _)
  | deliver s rest =>
      have hdelivered {inner : Future (.maybe .listener)} (hinner : inner.Plain k)
          (d : Option Duration) : Plays k i (Dispatched k j (.deliver s rest))
            (Pure.pure (Future.bind inner (.delivered j rest s d))) fun f x => f.Holds k x :=
        .pure fun x ts h => ⟨[], ts, rfl, hinner x, h⟩
      simp only [dispatched]
      cases deadline with
      | none => exact hdelivered (.map (plain_delivery _ _ _) _) none
      | some d =>
          refine .bind (.calm (calms_alarmAfter d) (Held.local_carries k j _)) fun alarm => ?_
          exact hdelivered (plain_delivery _ _ _) _

/-- A dispatch goes on with a turn of its ticket. -/
theorem plays_dispatching {act : Broker Action → Broker Action × Dispatch.Next Action}
    (hfound : j = k → ∀ (x : Traffic Action) ts, x.Lawful → P x ts → ∃ t turn y event,
      ts = [t] ∧ x.turn t turn = Traffic.dispatching y t event (act x.broker))
    (habsent : j = k → ∀ (x : Traffic Action) ts, P x ts → (∀ t, x.tasks t = none) →
      ∃ result, (act noBroker).2 = .finished result) :
    Plays k i P (dispatching j act) fun f x => f.Holds k x := by
  refine .bind (Q := fun p => Dispatched k j p.1) ?_ fun p => plays_dispatched p.2 p.1
  refine plays_onBroker ?_ ?_ ?_
  · rintro rfl x ts hlawful _ hP
    obtain ⟨t, turn, y, event, rfl, hturn⟩ := hfound rfl x ts hlawful hP
    obtain ⟨hbroker, htask⟩ := y.dispatching_spec t event (act x.broker)
    rw [← hturn] at hbroker htask
    refine ⟨t, turn, rfl, hbroker, ?_⟩
    intro x' htasks _
    rw [← htasks] at htask
    exact Dispatched.of_task htask
  · intro hj x ts hP hnone
    obtain ⟨result, hresult⟩ := habsent hj x ts hP hnone
    simp only [hresult]
    trivial
  · exact fun hne p x => Dispatched.other hne p.1

/-- What a registration holds that has come so far. -/
def Registering (k j : Nat) : Registration.Next Action → Held
  | .suspended stage => fun x => Carries k x j fun a => ∃ name, a = .registering name stage
  | .setUp owner handle => fun x =>
    Carries k x j fun a => ∃ name, a = .registering name (.settingUp owner handle)
  | .finished _ => fun _ _ => True

theorem local_registering (k j : Nat) (next : Registration.Next Action) :
    (Registering k j next).Local := by
  cases next with
  | suspended stage => exact Held.local_carries k j _
  | setUp owner handle => exact Held.local_carries k j _
  | finished result => exact fun _ _ _ _ _ => trivial

theorem Registering.of_task {t : Ticket} {next : Registration.Next Action} {name : String}
    (htask : x.tasks t = some ⟨next.activity name, false⟩) : Registering k k next x [t] := by
  cases next with
  | suspended stage => exact Carries.of_task rfl htask ⟨name, rfl⟩
  | setUp owner handle => exact Carries.of_task rfl htask ⟨name, rfl⟩
  | finished result => trivial

theorem Registering.other (hne : j ≠ k) (next : Registration.Next Action) :
    Registering k j next x [] := by
  cases next with
  | suspended stage => exact Carries.other hne
  | setUp owner handle => exact Carries.other hne
  | finished result => trivial

/-- A registration goes on with a turn of its ticket. -/
theorem plays_registering {act : Broker Action → Registration.Result Action} (u : Ticket)
    (service : Service)
    (hfound : j = k → ∀ (x : Traffic Action) ts, x.Lawful → P x ts → ∃ t turn y name,
      ts = [t] ∧ x.turn t turn = Traffic.registering y t name (act x.broker))
    (habsent : j = k → ∀ (x : Traffic Action) ts, P x ts → (∀ t, x.tasks t = none) →
      ∃ result, act noBroker = { broker := (act noBroker).broker, next := .finished result }) :
    Plays k i P (registering j u service act) fun f x => f.Holds k x := by
  let acted (p : Registration.Next Action × Option ServiceId) : Held := fun x ts =>
    Registering k j p.1 x ts ∧ (j = k → ∀ id ∈ p.2, id ∈ x.orphans)
  refine .bind (Q := acted) (plays_onBroker ?_ ?_ ?_) ?_
  · rintro rfl x ts hlawful _ hP
    obtain ⟨t, turn, y, name, rfl, hturn⟩ := hfound rfl x ts hlawful hP
    obtain ⟨hbroker, htask, horphan⟩ := y.registering_spec t name (act x.broker)
    rw [← hturn] at hbroker htask horphan
    refine ⟨t, turn, rfl, hbroker, ?_⟩
    intro x' htasks horphans
    rw [← htasks] at htask
    rw [← horphans] at horphan
    exact ⟨Registering.of_task htask, fun _ => horphan⟩
  · intro hj x ts hP hnone
    obtain ⟨result, hresult⟩ := habsent hj x ts hP hnone
    rw [hresult]
    exact ⟨trivial, by simp⟩
  · exact fun hne p x => ⟨Registering.other hne p.1, fun hj => absurd hj hne⟩
  · rintro ⟨next, orphan⟩
    refine .bind (plays_discardLater orphan (local_registering k j next)) fun _ => ?_
    cases next with
    | suspended stage => exact .pure fun _ _ h => h
    | setUp owner handle =>
        exact .pure fun x ts h => ⟨[], ts, rfl, Future.Plain.begin (k := k) rfl x, h⟩
    | finished result => exact .quit (.value _)

/-- What any other call holds that has come so far. -/
def Calling (k j : Nat) (shows : Call Action → Activity Action → Prop) : Called Action → Held
  | .suspended call => fun x => Carries k x j (shows call)
  | .finished _ => fun _ _ => True

/-- Any other call goes on with a turn of its ticket. -/
theorem plays_called {act : Broker Action → Broker Action × Called Action}
    (shows : Call Action → Activity Action → Prop)
    (hfound : j = k → ∀ (x : Traffic Action) ts, x.Lawful → P x ts → ∃ t turn, ts = [t] ∧
      (x.turn t turn).broker = (act x.broker).1.flushed ∧
        ∀ call, (act x.broker).2 = .suspended call →
          ∃ a, shows call a ∧ (x.turn t turn).tasks t = some ⟨a, false⟩)
    (habsent : j = k → ∀ (x : Traffic Action) ts, P x ts → (∀ t, x.tasks t = none) →
      ∃ result, (act noBroker).2 = .finished result) :
    Plays k i P (onBroker j act) (Calling k j shows) := by
  refine plays_onBroker ?_ ?_ ?_
  · rintro rfl x ts hlawful _ hP
    obtain ⟨t, turn, rfl, hbroker, htask⟩ := hfound rfl x ts hlawful hP
    refine ⟨t, turn, rfl, hbroker, ?_⟩
    intro x' htasks _
    cases hcalled : (act x.broker).2 with
    | suspended call =>
        obtain ⟨a, hshows, ha⟩ := htask call hcalled
        exact Carries.of_task rfl (by rw [htasks, ha]) hshows
    | finished result => trivial
  · intro hj x ts hP hnone
    obtain ⟨result, hresult⟩ := habsent hj x ts hP hnone
    rw [hresult]
    trivial
  · intro hne called x
    cases called with
    | suspended call => exact Carries.other hne
    | finished result => trivial

theorem plays_subscribing {act : Broker Action → Broker Action × Called Action}
    (hfound : j = k → ∀ (x : Traffic Action) ts, x.Lawful → P x ts →
      ∃ t turn y service listener, ts = [t] ∧
        x.turn t turn = Traffic.subscribing y t service listener (act x.broker))
    (habsent : j = k → ∀ (x : Traffic Action) ts, P x ts → (∀ t, x.tasks t = none) →
      ∃ result, (act noBroker).2 = .finished result) :
    Plays k i P (subscribing j act) fun f x => f.Holds k x := by
  refine .bind (plays_called (fun call a => ∃ service listener,
    a = .subscribing service listener call) ?_ habsent) fun called => ?_
  · intro hj x ts hlawful hP
    obtain ⟨t, turn, y, service, listener, hts, hturn⟩ := hfound hj x ts hlawful hP
    obtain ⟨hbroker, htask⟩ := y.subscribing_spec t service listener (act x.broker)
    rw [← hturn] at hbroker htask
    exact ⟨t, turn, hts, hbroker, fun call hcall => ⟨_, ⟨service, listener, rfl⟩, htask call hcall⟩⟩
  · cases called with
    | suspended call => exact .pure fun _ _ h => h
    | finished result => exact .quit (.value _)

theorem plays_listing {act : Broker Action → Broker Action × Called Action}
    (hfound : j = k → ∀ (x : Traffic Action) ts, x.Lawful → P x ts → ∃ t turn y,
      ts = [t] ∧ x.turn t turn = Traffic.listing y t (act x.broker))
    (habsent : j = k → ∀ (x : Traffic Action) ts, P x ts → (∀ t, x.tasks t = none) →
      ∃ result, (act noBroker).2 = .finished result) :
    Plays k i P (listing j act) fun f x => f.Holds k x := by
  refine .bind (plays_called (fun call a => a = .listing call) ?_ habsent) fun called => ?_
  · intro hj x ts hlawful hP
    obtain ⟨t, turn, y, hts, hturn⟩ := hfound hj x ts hlawful hP
    obtain ⟨hbroker, htask⟩ := y.listing_spec t (act x.broker)
    rw [← hturn] at hbroker htask
    exact ⟨t, turn, hts, hbroker, fun call hcall => ⟨_, rfl, htask call hcall⟩⟩
  · cases called with
    | suspended call => exact .pure fun _ _ h => h
    | finished result => exact .quit (.value _)

end Sim

end Simulation

end EventHub
