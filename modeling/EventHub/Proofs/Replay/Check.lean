import EventHub.Proofs.Replay.Waits

/-!
Looks at waits. The registry that takes commands takes as many steps in the traffic;
what a caller waits for is a turn of its ticket; and all other waits are a matter of
the world alone.
-/

namespace EventHub

/-- The registry takes some steps at once. -/
theorem Traffic.work_spec {L : Type} {x : Traffic L} (hflushed : x.broker.flushed = x.broker)
    (n : Nat) :
    ∃ x', (List.replicate n .work).foldl Traffic.step x = x' ∧
      x'.broker = (n.repeat Broker.step x.broker).flushed ∧ x'.tasks = x.tasks ∧
      x'.orphans = x.orphans := by
  induction n with
  | zero => exact ⟨x, rfl, hflushed.symm, rfl, rfl⟩
  | succ n ih =>
      obtain ⟨x', hrun, hbroker, htasks, horphans⟩ := ih
      refine ⟨x'.step .work, ?_, ?_, htasks, horphans⟩
      · rw [List.replicate_succ', List.foldl_append, hrun]
        rfl
      · have hflat : x'.broker.flushed = (n.repeat Broker.step x.broker).flushed := by
          rw [hbroker]
          rfl
        exact Broker.flushed_step hflat

namespace Simulation.Sim

open Script

variable {k i : Nat} {a : Shape} {j : Nat}

theorem plays_workOff (j : Nat) :
    Plays k i .none (workOff j) fun p x => p.future.Holds k x := by
  have hnone := Held.local_none
  have hworked {act : Broker Action → Broker Action × (Bool × Nat)}
      (hact : ∀ b, ∃ n : Nat, (act b).1 = n.repeat Broker.step b) :
      Plays k i .none (onBroker j act) fun _ => .none := by
    refine plays_onBroker_ticketless ?_ hnone
    intro x hflushed
    obtain ⟨n, hn⟩ := hact x.broker
    rw [hn]
    exact ⟨_, Traffic.work_spec hflushed n⟩
  rw [workOff]
  refine .bind (.calm .get hnone) fun w => .bind (hworked fun b => ⟨_, rfl⟩) fun worked => ?_
  obtain ⟨stopped, taken⟩ := worked
  cases stopped with
  | true => exact .pure fun _ _ h => h
  | false =>
      refine .bind (.calm (calms_spend taken) hnone) fun _ => ?_
      refine .bind (.calm calms_isSpent hnone) fun spent => ?_
      have hstays : Plays k i .none (pure (Polled.pending (.commands j))) fun p x =>
          p.future.Holds k x := .pure fun _ _ h => h
      cases spent with
      | true => exact .bind (.calm calms_defer hnone) fun _ => hstays
      | false => exact hstays

theorem plays_resumeRegistration (j : Nat) (t : Ticket) (service : Service)
    (stage : Registration Action) :
    Plays k i (fun x => (Wait.registration j t service stage).Holds k x)
      (registering j t service (Registration.resume · stage)) fun f x => f.Holds k x := by
  refine plays_registering t service ?_ ?_
  · rintro rfl x ts _ hholds
    obtain ⟨u, a, hts, htask, name, rfl⟩ := Carries.task hholds
    exact ⟨u, .goOn, x, name, hts, Traffic.turn_some htask _⟩
  · rintro rfl x ts hholds hnone
    exact Carries.elim hholds hnone

theorem plays_resumeDispatch (j : Nat) (e : Event) (call : EventHub.Call Action) :
    Plays k i (fun x => (Wait.asking j e call).Holds k x)
      (dispatching j (Dispatch.resume · e call)) fun f x => f.Holds k x := by
  refine plays_dispatching ?_ ?_
  · rintro rfl x ts _ hholds
    obtain ⟨u, a, hts, htask, rfl⟩ := Carries.task hholds
    exact ⟨u, .goOn, x, e, hts, Traffic.turn_some htask _⟩
  · rintro rfl x ts hholds hnone
    exact Carries.elim hholds hnone

theorem plays_resumeSubscribing (j : Nat) (call : EventHub.Call Action) :
    Plays k i (fun x => (Wait.subscribing j call).Holds k x)
      (subscribing j (·.resume call)) fun f x => f.Holds k x := by
  refine plays_subscribing ?_ ?_
  · rintro rfl x ts _ hholds
    obtain ⟨u, a, hts, htask, service, listener, rfl⟩ := Carries.task hholds
    exact ⟨u, .goOn, x, service, listener, hts, Traffic.turn_some htask _⟩
  · rintro rfl x ts hholds hnone
    exact Carries.elim hholds hnone

theorem plays_resumeListing (j : Nat) (call : EventHub.Call Action) :
    Plays k i (fun x => (Wait.listing j call).Holds k x)
      (listing j (·.resume call)) fun f x => f.Holds k x := by
  refine plays_listing ?_ ?_
  · rintro rfl x ts _ hholds
    obtain ⟨u, a, hts, htask, rfl⟩ := Carries.task hholds
    exact ⟨u, .goOn, x, hts, Traffic.turn_some htask _⟩
  · rintro rfl x ts hholds hnone
    exact Carries.elim hholds hnone

theorem tame_posting (hne : j ≠ k) (t : Ticket) (id : ServiceId) : Tame k (posting j t id) := by
  refine .bind (calms_onBroker hne _) fun posted => ?_
  cases posted with
  | waits => exact .pure fun x => ⟨hne, rfl⟩
  | accepted => exact .pure (.value _)
  | refused => exact .pure (.value _)

/-- What nobody asks a broker for is waited for in a line of the world's own. -/
theorem plays_waitUntil {w : Wait a} {ready : Option a.Value} {enter leave : Sim Unit}
    (hw : ∀ x, w.Holds k x []) (henter : Calms k enter) (hleave : Calms k leave) :
    Plays k i .none (waitUntil w ready enter leave) fun p x => p.future.Holds k x := by
  cases ready with
  | none =>
      refine .bind (.calm henter Held.local_none) fun _ => .pure ?_
      rintro x _ rfl
      exact hw x
  | some v => exact .bind (.calm hleave Held.local_none) fun _ => .pure fun _ _ h => h

theorem plays_check_quiet {w : Wait a} (hw : ¬ Waits w) :
    Plays k i .none (check w) fun p x => p.future.Holds k x := by
  have hnone := Held.local_none
  have hget : Plays k i .none get fun _ => .none := .calm .get hnone
  have henter {f : World → World} (hcurrent : ∀ w, (f w).current = w.current)
      (hserial : ∀ w, (f w).serial = w.serial) (hbrokers : ∀ w, (f w).brokers = w.brokers)
      (htasks : ∀ w, (f w).tasks = w.tasks) : Calms k (modify f : Sim Unit) :=
    .modify hcurrent hserial hbrokers htasks
  have hleave := calms_dropWait (k := k) hw
  cases w with
  | registration | asking | subscribing | listing | posting => exact absurd trivial hw
  | commands j => exact plays_workOff j
  | alarm alarm =>
      refine plays_take_held (w := .alarm alarm)
        (.bind (.calm (calms_isDue alarm) hnone) fun due => ?_)
      cases due with
      | true => exact .pure fun _ _ h => h
      | false => exact .pure fun _ _ h => h
  | permit job t body =>
      exact .bind (.calm (calms_onPool _) hnone) fun admission =>
        plays_of (R := fun f x => f.Holds k x) (.tame (tame_admitted job t body admission))
  | taking things t =>
      rw [check]
      refine .bind hget fun w => .bind (.calm (calms_spend things) hnone) fun _ => ?_
      split
      · exact .pure fun _ _ h => h
      · exact .bind (.calm calms_defer hnone) fun _ => .pure fun _ _ h => h
  | yielded rounds t =>
      cases rounds with
      | zero => exact .pure fun _ _ h => h
      | succ rounds => exact .bind (.calm calms_defer hnone) fun _ => .pure fun _ _ h => h
  | gate name t =>
      refine .bind hget fun w => plays_waitUntil (fun _ => rfl) ?_ hleave
      exact henter (fun _ => rfl) (fun _ => rfl) (fun _ => rfl) fun _ => rfl
  | cancellation job t =>
      exact .bind hget fun w => plays_waitUntil (fun _ => rfl) (calms_updatePool _) hleave
  | shutdown t =>
      refine .bind hget fun w => plays_waitUntil (fun _ => rfl) ?_ hleave
      exact henter (fun _ => rfl) (fun _ => rfl) (fun _ => rfl) fun _ => rfl
  | interruption t =>
      have hwatch : Calms k (check.watchTrigger t) :=
        henter (fun _ => rfl) (fun _ => rfl) (fun _ => rfl) fun _ => rfl
      rw [check]
      refine .bind hget fun w => ?_
      split
      · exact .bind (.calm hleave hnone) fun _ => .pure fun _ _ h => h
      · split
        · refine .bind (.calm hleave hnone) fun _ => ?_
          exact .bind (.calm (calms_write _) hnone) fun _ => .pure fun _ _ h => h
        · exact .bind (.calm hwatch hnone) fun _ => .pure fun _ _ h => h
  | drained t =>
      exact .bind hget fun w => plays_waitUntil (fun _ => rfl) (calms_updatePool _) hleave
  | jobResult job t =>
      refine plays_take_held (w := .jobResult job t) (.bind hget fun w => ?_)
      exact plays_waitUntil (fun _ => rfl) (calms_updatePool _) hleave
  | task task t =>
      refine plays_take_held (w := .task task t) (.bind hget fun w => ?_)
      refine plays_waitUntil (fun _ => rfl) ?_ hleave
      exact henter (fun _ => rfl) (fun _ => rfl) (fun _ => rfl) fun _ => rfl
  | blocking task t =>
      refine plays_take_held (w := .blocking task t) (.bind hget fun w => ?_)
      refine plays_waitUntil (fun _ => rfl) ?_ hleave
      exact henter (fun _ => rfl) (fun _ => rfl) (fun _ => rfl) fun _ => rfl

/-- A wait that is looked at goes on or stays where it is. -/
theorem plays_check (w : Wait a) :
    Plays k i (fun x => w.Holds k x) (check w) fun p x => p.future.Holds k x := by
  by_cases hw : Waits w
  · cases w with
    | registration j t service stage =>
        exact plays_take_held (plays_of (plays_resumeRegistration j t service stage))
    | asking j e call => exact plays_take_held (plays_of (plays_resumeDispatch j e call))
    | subscribing j call => exact plays_take_held (plays_of (plays_resumeSubscribing j call))
    | listing j call => exact plays_take_held (plays_of (plays_resumeListing j call))
    | posting j t id =>
        intro x ts w h hholds hown
        refine plays_take_held (w := .posting j t id) (plays_of (.tame ?_)) x ts w h hholds hown
        exact tame_posting hholds.1 t id
    | _ => exact hw.elim
  · refine (plays_check_quiet hw).weaken fun x ts h => ?_
    cases w with
    | registration | asking | subscribing | listing | posting => exact absurd trivial hw
    | _ => exact h

end Simulation.Sim

end EventHub
