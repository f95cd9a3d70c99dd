import EventHub.Proofs.Panics.Runs

/-!
Dispatches whose listeners break off. Each listener that was found for an event is called
under the guard of the broker's deadline, in a frame that takes whatever becomes of it. So
a dispatch has one verdict for each of them, in order, and it ends with the report that
these verdicts make.
-/

namespace EventHub

/-- The report after one more call. -/
def Report.after (r : Report) (service : String) (verdict : Verdict) : Report :=
  match verdict.result with
  | .ok () => { r with delivered := r.delivered + 1 }
  | .error e => { r with failures := r.failures ++ [⟨service, e⟩] }

/-- The report after more calls, one after another. -/
def Report.afterAll {L : Type} (r : Report) (calls : List (Subscription L × Verdict)) : Report :=
  calls.foldl (fun r c => r.after c.1.service.name c.2) r

namespace Dispatch

variable {L : Type}

/-- A dispatch after the call of one listener. -/
def settled (d : Dispatch L) (s : Subscription L) (verdict : Verdict) : Dispatch L :=
  { d with report := d.report.after s.service.name verdict }

/-- What a dispatch goes on with. -/
def next (d : Dispatch L) : Next L :=
  match d.remaining with
  | s :: rest => .deliver s { d with remaining := rest }
  | [] => .finished (.ok d.report)

/-- A dispatch before the first call. -/
def fresh (event : Event) (found : List (Subscription L)) : Dispatch L :=
  { event, remaining := found, report := .ofEvent event }

theorem advance_snd (b : Broker L) (d : Dispatch L) : (advance b d).2 = d.next := by
  rw [advance, next]
  cases d.remaining <;> rfl

theorem settle_snd (b : Broker L) (d : Dispatch L) (s : Subscription L) (verdict : Verdict) :
    (settle b d s verdict).2 = d.settled s verdict := by
  rw [settle, settled, Report.after]
  cases verdict.result <;> rfl

/-- A verdict of whatever kind makes the dispatch go on. -/
theorem ended_snd (b : Broker L) (d : Dispatch L) (s : Subscription L) (verdict : Verdict) :
    (ended b d s verdict).2 = (d.settled s verdict).next := by
  rw [ended, ← settle_snd b d s verdict]
  exact advance_snd _ _

/-- A dispatch that has no list of listeners yet asks on, gets one, or finds the broker
closed. -/
theorem asked_snd {event : Event} {p : Broker L × Called L}
    (hp : ∀ e, p.2 = .finished (.error e) → e = .closed) :
    (∃ call, (asked event p).2 = .asking event call) ∨
      (asked event p).2 = .finished (.error .closed) ∨
      ∃ found, (asked event p).2 = (fresh event found).next := by
  obtain ⟨b, called⟩ := p
  cases called with
  | suspended call => exact Or.inl ⟨call, rfl⟩
  | finished result =>
      cases result with
      | error e =>
          obtain rfl := hp e rfl
          exact Or.inr (Or.inl rfl)
      | ok answer =>
          cases answer with
          | subscriptions found => exact Or.inr (Or.inr ⟨found, advance_snd _ _⟩)
          | _ => exact Or.inr (Or.inl rfl)

end Dispatch

namespace Simulation

variable {broker : Nat} {turns : List (World × World)}

/-- What a dispatch runs for one listener. -/
def listenerCode (s : Subscription Action) (event : Event) : Future .listener :=
  match Dispatch.mismatch? s event with
  | some e => .value (.error e)
  | none => .begin (.listener s.listener.action event)

/-- What the guard of a listener call tells the dispatch. -/
def verdictOf (deadline : Option Duration) :
    Outcome (Option (Except ListenerError Unit)) → Verdict
  | .returned (some result) => .returned result
  | .returned none => .overdue (deadline.getD .zero)
  | .panicked payload => .panicked payload

/-- A listener was called for an event and this was the verdict. -/
def Delivered (event : Event) (s : Subscription Action) (verdict : Verdict) : Prop :=
  ∃ deadline own code', Advances (listenerCode s event) own code' ∧
    verdict = verdictOf deadline code'.given

/-- A dispatch calls its next listener, or it has its report. -/
inductive Underway (broker : Nat) (d : Dispatch Action) : Future .report → Prop where
  | calls (s : Subscription Action) (rest : List (Subscription Action)) (alarm : Option Alarm)
      (deadline : Option Duration) (hremaining : d.remaining = s :: rest) :
      Underway broker d (.bind ((listenerCode s d.event).guarded alarm)
        (.delivered broker { d with remaining := rest } s deadline))
  | reports (hremaining : d.remaining = []) : Underway broker d (.value (.ok d.report))

namespace Sim

theorem underway_dispatched (deadline : Option Duration) (d : Dispatch Action) (w : World) :
    Underway broker d ((dispatched broker deadline d.next).run w).1 := by
  rw [Dispatch.next]
  cases hremaining : d.remaining with
  | nil => exact .reports hremaining
  | cons s rest =>
      cases deadline with
      | none => exact .calls s rest none none hremaining
      | some span => exact .calls s rest (some _) (some span) hremaining

/-- A dispatch goes on with the verdict on the listener that has ended. -/
theorem resume_delivered (broker : Nat) (d : Dispatch Action) (s : Subscription Action)
    (deadline : Option Duration) (ended : Outcome (Option (Except ListenerError Unit))) :
    resume (.delivered broker d s deadline) ended =
      dispatching broker (Dispatch.ended · d s (verdictOf deadline ended)) := by
  cases ended with
  | returned v => cases v <;> rfl
  | panicked payload => rfl

/-- Whatever has become of a listener, the dispatch goes on at once. -/
theorem underway_delivered (d : Dispatch Action) (s : Subscription Action)
    (deadline : Option Duration) (ended : Outcome (Option (Except ListenerError Unit)))
    (w : World) :
    Underway broker (d.settled s (verdictOf deadline ended))
      ((resume (.delivered broker d s deadline) ended).run w).1 := by
  obtain ⟨b, deadline', w', -, hrun⟩ :=
    dispatching_run broker (Dispatch.ended · d s (verdictOf deadline ended)) w
  rw [resume_delivered, hrun, Dispatch.ended_snd]
  exact underway_dispatched deadline' _ w'

end Sim

/-- A dispatch ends with the report that the verdicts of all its listeners make. -/
theorem runs_underway {d : Dispatch Action} {f : Future .report}
    {o : Outcome (Except BrokerError Report)} (h : Runs f turns o) (hf : Underway broker d f) :
    ∃ calls : List (Subscription Action × Verdict), calls.map Prod.fst = d.remaining ∧
      (∀ c ∈ calls, Delivered d.event c.1 c.2) ∧
      o = .returned (.ok (d.report.afterAll calls)) := by
  generalize hlisteners : d.remaining = listeners
  induction listeners generalizing d f turns with
  | nil =>
      cases hf with
      | calls s rest alarm deadline hremaining => cases hlisteners.symm.trans hremaining
      | reports hremaining =>
          obtain ⟨rfl, -⟩ := h.of_done
          exact ⟨[], rfl, by simp, rfl⟩
  | cons s listeners ih =>
      cases hf with
      | reports hremaining => cases hlisteners.symm.trans hremaining
      | calls s' rest alarm deadline hremaining =>
          cases hlisteners.symm.trans hremaining
          obtain ⟨own, ended, v, w', later, hguard, -, hruns, -⟩ := h.of_bind
          obtain ⟨turns', code', hcode, -, rfl, -⟩ := hguard.of_guarded
          obtain ⟨calls, hcalls, hall, ho⟩ := ih hruns (Sim.underway_delivered _ _ _ _ v) rfl
          refine ⟨(s, verdictOf deadline code'.given) :: calls, ?_, ?_, ho⟩
          · rw [List.map_cons, hcalls]
          · exact List.forall_mem_cons.mpr ⟨⟨deadline, turns', code', hcode, rfl⟩, hall⟩

/-- A dispatch goes on with the verdict on whatever has become of a listener, and all the
other listeners are called. -/
theorem Runs.of_delivered {code : Future (.maybe .listener)} {d : Dispatch Action}
    {s : Subscription Action} {deadline : Option Duration}
    {o : Outcome (Except BrokerError Report)}
    (h : Runs (.bind code (.delivered broker d s deadline)) turns o) :
    ∃ (own : List (World × World)) (ended : Outcome (Option (Except ListenerError Unit)))
      (calls : List (Subscription Action × Verdict)), Runs code own ended ∧ Opens own turns ∧
      calls.map Prod.fst = d.remaining ∧ (∀ c ∈ calls, Delivered d.event c.1 c.2) ∧
      o = .returned (.ok
        ((d.report.after s.service.name (verdictOf deadline ended)).afterAll calls)) := by
  obtain ⟨own, ended, v, w', rest, hown, hopens, hruns, -⟩ := h.of_bind
  obtain ⟨calls, hcalls, hall, ho⟩ :=
    runs_underway hruns (Sim.underway_delivered d s deadline ended v)
  exact ⟨own, ended, calls, hown, hopens, hcalls, hall, ho⟩

/-- The listeners of a dispatch are found, and none was called yet. -/
def Found (broker : Nat) (event : Event) (f : Future .report) : Prop :=
  ∃ found, Underway broker (.fresh event found) f

namespace Sim

theorem found_dispatching {event : Event}
    {act : Broker Action → Broker Action × Dispatch.Next Action}
    (hact : ∀ b, (∃ call, (act b).2 = .asking event call) ∨
      (act b).2 = .finished (.error .closed) ∨
      ∃ found, (act b).2 = (Dispatch.fresh event found).next) (w : World) :
    Firing broker event ((dispatching broker act).run w).1 ∨
      Found broker event ((dispatching broker act).run w).1 := by
  obtain ⟨b, deadline, w', -, hrun⟩ := dispatching_run broker act w
  rw [hrun]
  rcases hact b with ⟨call, hnext⟩ | hnext | ⟨found, hnext⟩
  · rw [hnext]
    exact Or.inl (.asking call)
  · rw [hnext]
    exact Or.inl .closed
  · rw [hnext]
    exact Or.inr ⟨found, underway_dispatched deadline _ w'⟩

/-- Until listeners are found, only the broker is asked for them. -/
theorem poll_asking (n : Nat) {event : Event} {f : Future .report}
    (h : Firing broker event f) (w : World) : Firing broker event ((poll n f).run w).1 ∨
      ∃ n' f' w', Found broker event f' ∧ (poll n f).run w = (poll n' f').run w' := by
  induction n generalizing f w with
  | zero => exact Or.inl h
  | succ n ih =>
      cases h with
      | closed =>
          rw [poll_value]
          exact Or.inl .closed
      | begin =>
          have hbegun : Firing broker event ((Sim.begin (.fire broker event)).run w).1 ∨
              Found broker event ((Sim.begin (.fire broker event)).run w).1 := by
            rw [begin_fire_eq, run_bind]
            exact found_dispatching (fun b => Dispatch.asked_snd fun _ => Broker.error_call) _
          rw [poll_begin]
          rcases hbegun with hfiring | hfound
          · exact ih hfiring _
          · exact Or.inr ⟨n, _, _, hfound, rfl⟩
      | asking call =>
          have hgoes : Firing broker event
                ((dispatching broker (Dispatch.resume · event call)).run w).1 ∨
              Found broker event ((dispatching broker (Dispatch.resume · event call)).run w).1 :=
            found_dispatching (fun b => Dispatch.asked_snd fun _ => Broker.error_resume) w
          have hlook : ((Polled.of <$> dispatching broker (Dispatch.resume · event call)).run w).1 =
              .of ((dispatching broker (Dispatch.resume · event call)).run w).1 := rfl
          have hchecked := take_run (.asking broker event call)
            (Polled.of <$> dispatching broker (Dispatch.resume · event call)) w
          rw [hlook, ← check_asking_eq] at hchecked
          rw [poll_wait]
          generalize (check (.asking broker event call)).run w = checked at hchecked
          generalize ((dispatching broker (Dispatch.resume · event call)).run w).1 = g
            at hgoes hchecked
          obtain ⟨p, w'⟩ := checked
          rcases hchecked with ⟨hp, -⟩ | ⟨hp, -⟩
          · obtain rfl : p = _ := hp
            exact Or.inl (.asking call)
          · obtain rfl : p = .of g := hp
            rcases hgoes with hfiring | hfound
            · cases hfiring with
              | begin => exact ih .begin w'
              | asking call' => exact Or.inl (.asking call')
              | closed => exact ih .closed w'
            · have hnext : Polled.of g = .next g := by
                obtain ⟨found, hunderway⟩ := hfound
                cases hunderway <;> rfl
              rw [hnext]
              exact Or.inr ⟨n, g, w', hfound, rfl⟩

end Sim

/-- A dispatch ends because its broker is closed, or with a report to which each listener
that was found has contributed its verdict. -/
theorem runs_fire {event : Event} {o : Outcome (Except BrokerError Report)}
    (h : Runs (.begin (.fire broker event)) turns o) :
    o = .returned (.error .closed) ∨ ∃ calls : List (Subscription Action × Verdict),
      (∀ c ∈ calls, Delivered event c.1 c.2) ∧
      o = .returned (.ok ((Report.ofEvent event).afterAll calls)) := by
  rcases h.reaches (Firing broker event) (Found broker event)
    (fun n _ w hf => Sim.poll_asking n hf w) .begin with hdone | ⟨f, rest, ⟨found, hf⟩, hruns, -⟩
  · cases hdone
    exact Or.inl rfl
  · obtain ⟨calls, -, hall, ho⟩ := runs_underway hruns hf
    exact Or.inr ⟨calls, hall, ho⟩

end Simulation

end EventHub
