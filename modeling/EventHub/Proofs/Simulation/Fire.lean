import EventHub.Proofs.Simulation.Turns

/-!
Firing an event fails clean. Until the snapshot has come, firing only asks its
broker, and if there will be no snapshot it fails because the broker is closed.
Once it has the snapshot, it ends with a report.
-/

namespace EventHub

namespace Broker

variable {L : Type}

theorem error_settlePost {b : Broker L} {t : Ticket} {c : Command L} {posted : Mailbox.Posted}
    {e : BrokerError} (h : (b.settlePost t c posted).2 = .finished (.error e)) : e = .closed := by
  cases posted with
  | refused =>
      simp only [settlePost] at h
      cases h
      rfl
  | accepted => cases h
  | waits => cases h

/-- A broker has no other reason to leave a call without an answer. -/
theorem error_call {b : Broker L} {t : Ticket} {c : Command L} {e : BrokerError}
    (h : (b.call t c).2 = .finished (.error e)) : e = .closed := by
  rw [call] at h
  split at h
  · cases h
    rfl
  · cases h

theorem error_resume {b : Broker L} {call : Call L} {e : BrokerError}
    (h : (b.resume call).2 = .finished (.error e)) : e = .closed := by
  cases call with
  | sending t c => exact error_settlePost h
  | awaiting t =>
      simp only [resume] at h
      split at h
      · cases h
      · cases h
      · cases h
      · cases h
        rfl

end Broker

namespace Dispatch

variable {L : Type}

/-- A dispatch that does not deliver yet asks on, or fails because the broker is
closed. -/
inductive Next.IsEarly (event : Event) : Next L → Prop where
  | asking (call : Call L) : IsEarly event (.asking event call)
  | closed : IsEarly event (.finished (.error .closed))

inductive Next.IsLate : Next L → Prop where
  | deliver (s : Subscription L) (rest : Dispatch L) : IsLate (.deliver s rest)
  | finished (report : Report) : IsLate (.finished (.ok report))

theorem isLate_advance (b : Broker L) (d : Dispatch L) : (advance b d).2.IsLate := by
  rw [advance]
  split
  · exact .deliver _ _
  · exact .finished _

theorem isLate_ended (b : Broker L) (d : Dispatch L) (s : Subscription L) (verdict : Verdict) :
    (ended b d s verdict).2.IsLate := isLate_advance _ _

theorem asked_cases {event : Event} {p : Broker L × Called L}
    (hp : ∀ e, p.2 = .finished (.error e) → e = .closed) :
    (asked event p).2.IsEarly event ∨ (asked event p).2.IsLate := by
  rw [asked.eq_def]
  split
  · exact Or.inl (.asking _)
  · exact Or.inr (isLate_advance _ _)
  · exact Or.inl .closed
  · obtain rfl := hp _ rfl
    exact Or.inl .closed

end Dispatch

namespace Simulation

/-- Nothing was done yet but to ask the broker. -/
inductive Firing (broker : Nat) (event : Event) : Future .report → Prop where
  | begin : Firing broker event (.begin (.fire broker event))
  | asking (call : EventHub.Call Action) : Firing broker event (.wait (.asking broker event call))
  | closed : Firing broker event (.value (.error .closed))

/-- A listener of the dispatch runs, or the report is there. -/
inductive Delivering (broker : Nat) : Future .report → Prop where
  | calling (inner : Future (.maybe .listener)) (d : Dispatch Action) (s : Subscription Action)
      (deadline : Option Duration) :
      Delivering broker (.bind inner (.delivered broker d s deadline))
  | finished (report : Report) : Delivering broker (.value (.ok report))

namespace Sim

theorem spares_dispatched (broker : Nat) (deadline : Option Duration)
    (next : Dispatch.Next Action) : Spares (dispatched broker deadline next) := by
  cases next with
  | asking event call => exact .pure _
  | finished result => exact .pure _
  | deliver s rest =>
      cases deadline with
      | none => exact .pure _
      | some d => exact .bind (spares_alarmAfter d) fun _ => .pure _

theorem firing_dispatched (broker : Nat) (deadline : Option Duration) {event : Event}
    {next : Dispatch.Next Action} (h : next.IsEarly event) (w : World) :
    Firing broker event ((dispatched broker deadline next).run w).1 := by
  cases h with
  | asking call => exact .asking call
  | closed => exact .closed

theorem delivering_dispatched (broker : Nat) (deadline : Option Duration)
    {next : Dispatch.Next Action} (h : next.IsLate) (w : World) :
    Delivering broker ((dispatched broker deadline next).run w).1 := by
  cases h with
  | deliver s rest => cases deadline <;> exact .calling _ _ _ _
  | finished report => exact .finished report

/-- Goes on with a dispatch as some broker makes it go on. -/
theorem dispatching_run (broker : Nat)
    (act : Broker Action → Broker Action × Dispatch.Next Action) (w : World) :
    ∃ b deadline w', Kept w w' ∧
      (dispatching broker act).run w = (dispatched broker deadline (act b).2).run w' := by
  obtain ⟨⟨b, hnext⟩, hkept⟩ := onBroker_run broker
    (fun b => ((act b).1, ((act b).2, (act b).1.listenerDeadline))) w
  refine ⟨b, (act b).1.listenerDeadline, _, hkept, ?_⟩
  rw [dispatching, run_bind]
  exact congrArg (fun next => (dispatched broker next.2 next.1).run _) hnext

theorem spares_dispatching (broker : Nat)
    (act : Broker Action → Broker Action × Dispatch.Next Action) :
    Spares (dispatching broker act) := by
  intro w
  obtain ⟨b, deadline, w', hkept, hrun⟩ := dispatching_run broker act w
  rw [hrun]
  exact hkept.trans (spares_dispatched _ _ _ w')

/-- A dispatch that may still be early asks its broker, or begins to deliver. -/
theorem early_dispatching (broker : Nat) {event : Event}
    {act : Broker Action → Broker Action × Dispatch.Next Action}
    (hact : ∀ b, (act b).2.IsEarly event ∨ (act b).2.IsLate) (w : World) :
    Firing broker event ((dispatching broker act).run w).1 ∨
      Delivering broker ((dispatching broker act).run w).1 := by
  obtain ⟨b, deadline, w', -, hrun⟩ := dispatching_run broker act w
  rw [hrun]
  rcases hact b with hearly | hlate
  · exact Or.inl (firing_dispatched broker deadline hearly w')
  · exact Or.inr (delivering_dispatched broker deadline hlate w')

theorem late_dispatching (broker : Nat)
    {act : Broker Action → Broker Action × Dispatch.Next Action}
    (hact : ∀ b, (act b).2.IsLate) (w : World) :
    Delivering broker ((dispatching broker act).run w).1 := by
  obtain ⟨b, deadline, w', -, hrun⟩ := dispatching_run broker act w
  rw [hrun]
  exact delivering_dispatched broker deadline (hact b) w'

theorem spares_listen {a : Shape} (wait : Wait a) : Spares (listen wait) := by
  rw [listen.eq_def]
  split
  · exact spares_onBroker _ _
  · exact spares_onBroker _ _
  · exact spares_onBroker _ _
  · exact spares_onBroker _ _
  · exact spares_onBroker _ _
  · exact .pure ()

theorem spares_taken {a : Shape} (wait : Wait a) (p : Polled a) : Spares (taken wait p) := by
  cases p with
  | next f => exact .bind (spares_spend 1) fun _ => .pure _
  | pending next =>
      simp only [taken]
      split
      · refine .bind (spares_spend 1) fun _ => .bind spares_isSpent fun spent => ?_
        cases spent
        · exact .bind (spares_listen next) fun _ => .pure _
        · exact .bind spares_defer fun _ => .pure _
      · exact .pure _

theorem taken_run {a : Shape} (wait : Wait a) (p : Polled a) (w : World) :
    ((taken wait p).run w).1 = p := by
  cases p with
  | next f => rfl
  | pending next =>
      simp only [taken]
      split
      · simp only [run_bind]
        split <;> rfl
      · rfl

/-- A look is put off, or is what it is. -/
theorem take_run {a : Shape} (wait : Wait a) (look : Sim (Polled a)) (w : World) :
    (((take wait look).run w).1 = .pending wait ∧ Kept w ((take wait look).run w).2) ∨
      (((take wait look).run w).1 = (look.run w).1 ∧
        Kept (look.run w).2 ((take wait look).run w).2) := by
  have hspent : (isSpent.run w).2 = w := rfl
  simp only [take, run_bind, hspent]
  split
  · exact Or.inl ⟨rfl, spares_defer w⟩
  · exact Or.inr ⟨taken_run wait _ _, spares_taken wait _ _⟩

theorem check_asking_eq (broker : Nat) (event : Event) (call : EventHub.Call Action) :
    check (.asking broker event call) = take (.asking broker event call)
      (Polled.of <$> dispatching broker (Dispatch.resume · event call)) := by
  rw [check]

/-- Looking whether the snapshot has come. -/
theorem check_asking (broker : Nat) (event : Event) (call : EventHub.Call Action) (w : World) :
    Kept w ((check (.asking broker event call)).run w).2 ∧
      ((∃ call', ((check (.asking broker event call)).run w).1 =
        .pending (.asking broker event call')) ∨
      (∃ f, ((check (.asking broker event call)).run w).1 = .next f ∧
        (Firing broker event f ∨ Delivering broker f))) := by
  have hact (b : Broker Action) : (Dispatch.resume b event call).2.IsEarly event ∨
      (Dispatch.resume b event call).2.IsLate :=
    Dispatch.asked_cases fun _ => Broker.error_resume
  have hkept := spares_dispatching broker (Dispatch.resume · event call) w
  have hnext := early_dispatching broker hact w
  rw [check_asking_eq]
  rcases take_run (.asking broker event call)
    (Polled.of <$> dispatching broker (Dispatch.resume · event call)) w with
    ⟨hwait, htake⟩ | ⟨hlook, htake⟩
  · exact ⟨htake, Or.inl ⟨call, hwait⟩⟩
  · refine ⟨hkept.trans htake, ?_⟩
    have hlook' : ((Polled.of <$> dispatching broker (Dispatch.resume · event call)).run w).1 =
        Polled.of ((dispatching broker (Dispatch.resume · event call)).run w).1 := rfl
    rw [hlook, hlook']
    generalize ((dispatching broker (Dispatch.resume · event call)).run w).1 = f at hnext ⊢
    rcases hnext with hfiring | hdelivering
    · cases hfiring with
      | begin => exact Or.inr ⟨_, rfl, Or.inl .begin⟩
      | asking call' => exact Or.inl ⟨call', rfl⟩
      | closed => exact Or.inr ⟨_, rfl, Or.inl .closed⟩
    · cases hdelivering with
      | calling inner d s deadline => exact Or.inr ⟨_, rfl, Or.inr (.calling _ _ _ _)⟩
      | finished report => exact Or.inr ⟨_, rfl, Or.inr (.finished report)⟩

theorem begin_fire_eq (broker : Nat) (event : Event) :
    Sim.begin (.fire broker event) =
      (ticket >>= fun t => dispatching broker (Dispatch.start · t event)) := by
  rw [Sim.begin]

/-- Firing begins by asking the broker. -/
theorem begin_fire (broker : Nat) (event : Event) (w : World) :
    Kept w ((Sim.begin (.fire broker event)).run w).2 ∧
      (Firing broker event ((Sim.begin (.fire broker event)).run w).1 ∨
        Delivering broker ((Sim.begin (.fire broker event)).run w).1) := by
  have hact (t : Ticket) (b : Broker Action) :
      (Dispatch.start b t event).2.IsEarly event ∨ (Dispatch.start b t event).2.IsLate :=
    Dispatch.asked_cases fun _ => Broker.error_call
  rw [begin_fire_eq, run_bind]
  exact ⟨(spares_ticket w).trans (spares_dispatching broker _ _),
    early_dispatching broker (hact _) _⟩

theorem poll_delivering {broker : Nat} (n : Nat) {f : Future .report} (h : Delivering broker f)
    (w : World) : Delivering broker ((poll n f).run w).1 := by
  induction n generalizing f w with
  | zero => exact h
  | succ n ih =>
      cases h with
      | finished report =>
          rw [poll_value]
          exact .finished report
      | calling inner d s deadline =>
          rw [poll_bind]
          cases hpoll : (poll n inner).run w with
          | mk g w' =>
              cases g with
              | done o =>
                  have hended : Delivering broker
                      ((resume (.delivered broker d s deadline) o).run w').1 :=
                    late_dispatching broker (fun b => Dispatch.isLate_ended b d s _) w'
                  exact ih hended _
              | _ => exact .calling _ _ _ _

theorem poll_firing {broker : Nat} {event : Event} (n : Nat) {f : Future .report}
    (h : Firing broker event f) (w : World) :
    (Firing broker event ((poll n f).run w).1 ∧ Kept w ((poll n f).run w).2) ∨
      Delivering broker ((poll n f).run w).1 := by
  induction n generalizing f w with
  | zero => exact Or.inl ⟨h, .refl w⟩
  | succ n ih =>
      cases h with
      | closed =>
          rw [poll_value]
          exact Or.inl ⟨.closed, .refl w⟩
      | begin =>
          obtain ⟨hkept, hbegun⟩ := begin_fire broker event w
          rw [poll_begin]
          generalize (Sim.begin (.fire broker event)).run w = begun at hkept hbegun ⊢
          obtain ⟨f, w'⟩ := begun
          rcases hbegun with hfiring | hdelivering
          · rcases ih hfiring w' with ⟨hf, hk⟩ | hd
            · exact Or.inl ⟨hf, hkept.trans hk⟩
            · exact Or.inr hd
          · exact Or.inr (poll_delivering n hdelivering w')
      | asking call =>
          obtain ⟨hkept, hchecked⟩ := check_asking broker event call w
          rw [poll_wait]
          generalize (check (.asking broker event call)).run w = checked at hkept hchecked
          obtain ⟨p, w'⟩ := checked
          rcases hchecked with ⟨call', hp⟩ | ⟨f, hp, hf⟩
          · obtain rfl : p = .pending (.asking broker event call') := hp
            exact Or.inl ⟨.asking call', hkept⟩
          · obtain rfl : p = .next f := hp
            rcases hf with hfiring | hdelivering
            · rcases ih hfiring w' with ⟨hg, hk⟩ | hd
              · exact Or.inl ⟨hg, hkept.trans hk⟩
              · exact Or.inr hd
            · exact Or.inr (poll_delivering n hdelivering w')

end Sim

/-- A result that is no failure. -/
def IsOk {ε α : Type} (r : Except ε α) : Prop := ∃ a, r = .ok a

/-- Firing an event fails clean: it fails only because the broker is closed, and
then it has done nothing but ask. -/
theorem failsClean_fire (broker : Nat) (event : Event) :
    (Future.begin (.fire broker event)).FailsClean (.error .closed) IsOk := by
  refine ⟨Firing broker event, Delivering broker, ?_, .begin⟩
  constructor
  case poll_early => exact fun n _ w h => Sim.poll_firing n h w
  case poll_late => exact fun n _ w h => Sim.poll_delivering n h w
  case early_done =>
    intro o h
    cases h
    rfl
  case late_done =>
    intro o h
    cases h with
    | finished report => exact ⟨_, ⟨report, rfl⟩, rfl⟩

end Simulation

end EventHub
