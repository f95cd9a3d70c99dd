import EventHub.Proofs.Replay.Turns
import EventHub.Simulation.Wait

/-!
Waits: a computation that is looked at goes on or stays in line, and one that is given
up leaves every line it stands in. Its ticket takes the same turn in the traffic.
-/

namespace EventHub

theorem Broker.resume_posted {L : Type} {b : Broker L} {t : Ticket}
    (h : b.replies.lookup t = some .posted) :
    b.resume (.awaiting t) = (b.listen t, .suspended (.awaiting t)) := by
  simp only [Broker.resume, h]

theorem Broker.listen_of_not_posted {L : Type} {b : Broker L} {t : Ticket}
    (h : b.replies.lookup t ≠ some .posted) : b.listen t = b := by
  rw [Broker.listen]
  split
  · rename_i hposted
    exact absurd hposted h
  · rfl

namespace Simulation

open Script

variable {k i : Nat}

namespace Sim

variable {a : Shape} {j : Nat}

section GivingUp

/-- A call that is given up takes its last turn. -/
theorem plays_giveUp {shows : Activity Action → Prop} {act : Broker Action → Broker Action × Unit}
    (hturn : ∀ (x : Traffic Action) u a, shows a →
      (x.giveUp u a).broker = (act x.broker).1.flushed) :
    Plays k i (fun x => Carries k x j shows) (onBroker j act) fun _ => .none := by
  refine Plays.drop (Q := fun _ _ _ => True) (plays_onBroker ?_ ?_ ?_)
  · rintro rfl x ts _ _ hcarries
    obtain ⟨u, a, hts, htask, hshows⟩ := hcarries.task
    refine ⟨u, .giveUp, hts, ?_, fun _ _ _ => trivial⟩
    rw [Traffic.turn_some htask]
    exact hturn x u a hshows
  · exact fun _ _ _ _ _ => trivial
  · exact fun _ _ _ => trivial

/-- Whether somebody waits for a broker. -/
def Waits {a : Shape} : Wait a → Prop
  | .registration .. => True
  | .asking .. => True
  | .subscribing .. => True
  | .listing .. => True
  | .posting .. => True
  | _ => False

theorem calms_dropWait {w : Wait a} (hw : ¬ Waits w) : Calms k (dropWait w) := by
  cases w with
  | registration | asking | subscribing | listing | posting => exact absurd trivial hw
  | commands j => exact .pure ()
  | alarm alarm => exact calms_unset alarm
  | cancellation job t => exact calms_updatePool _
  | permit job t body => exact calms_updatePool _
  | drained t => exact calms_updatePool _
  | jobResult job t => exact calms_updatePool _
  | taking things t => exact .pure ()
  | yielded rounds t => exact .pure ()
  | _ => exact .modify (fun _ => rfl) (fun _ => rfl) (fun _ => rfl) fun _ => rfl

theorem plays_dropWait (w : Wait a) :
    Plays k i (fun x => w.Holds k x) (dropWait w) fun _ => .none := by
  have hquiet (hcalm : Calms k (dropWait w)) : Plays k i (fun x => w.Holds k x) (dropWait w)
      fun _ => .none := (Plays.calm hcalm (Held.local_wait k w)).drop
  by_cases hw : Waits w
  · cases w with
    | registration j t service stage => exact plays_giveUp_registration
    | asking j event call =>
        rw [dropWait]
        refine plays_giveUp ?_
        rintro x u _ rfl
        rfl
    | subscribing j call =>
        rw [dropWait]
        refine plays_giveUp ?_
        rintro x u _ ⟨service, listener, rfl⟩
        rfl
    | listing j call =>
        rw [dropWait]
        refine plays_giveUp ?_
        rintro x u _ rfl
        rfl
    | posting j t id =>
        rw [dropWait] at hquiet ⊢
        intro x ts w h hholds hown
        exact hquiet (calms_onBroker hholds.1 _) x ts w h hholds hown
    | _ => exact hw.elim
  · exact hquiet (calms_dropWait hw)

/-- What is given up holds nothing any more. -/
theorem plays_drop (f : Future a) :
    Plays k i (fun x => f.Holds k x) (drop f) fun _ => .none := by
  induction f with
  | done o => exact .pure fun _ _ h => h
  | begin b => exact .pure fun _ _ h => h.2
  | wait w => exact plays_dropWait w
  | bind inner frame ih =>
      refine .bind (ih.frame (Held.local_frame k frame)) fun _ => ?_
      exact (plays_dropFrame frame).weaken fun _ _ => Held.none_sep
  | within alarm inner ih =>
      exact .bind ih fun _ => .calm (calms_unset alarm) Held.local_none
  | followed first others ihfirst ihothers =>
      refine .bind (ihfirst.frame (Held.local_future k others)) fun _ => ?_
      exact ihothers.weaken fun _ _ => Held.none_sep
  | raceClose j context steps => exact .pure fun _ _ h => h
  | abandon j alarm fill inner ih =>
      exact .bind ih fun _ => .calm (.optionForM calms_unset alarm) Held.local_none

end GivingUp

section Looking

/-- The computation that a wait has come to when it was looked at. -/
def Polled.future : Polled a → Future a
  | .pending w => .wait w
  | .next f => f

theorem future_of (f : Future a) : (Polled.of f).future = f := by
  cases f <;> rfl

/-- As long as the answer is not there, to begin to listen for it is a turn of the ticket. -/
def Listens (t u : Ticket) (activity : Activity Action) : Prop :=
  ∀ x : Traffic Action, x.broker.replies.lookup t = some .posted →
    (x.goOn u activity).broker = (x.broker.listen t).flushed ∧
      (x.goOn u activity).tasks u = some ⟨activity, false⟩

theorem listens_reserving (t u : Ticket) (name own : String) :
    Listens t u (.registering name (.reserving own (.awaiting t))) := by
  intro x hposted
  simp only [Traffic.goOn, Registration.resume, Broker.resume_posted hposted]
  exact ⟨rfl, x.put_tasks u (x.broker.listen t) _⟩

theorem listens_confirming (t u : Ticket) (name : String) (handle : Handle) :
    Listens t u (.registering name (.confirming handle (.awaiting t))) := by
  intro x hposted
  simp only [Traffic.goOn, Registration.resume, Broker.resume_posted hposted]
  exact ⟨rfl, x.put_tasks u (x.broker.listen t) _⟩

theorem listens_firing (t u : Ticket) (event : Event) :
    Listens t u (.firing event (.awaiting t)) := by
  intro x hposted
  simp only [Traffic.goOn, Dispatch.resume, Broker.resume_posted hposted]
  exact ⟨rfl, x.put_tasks u (x.broker.listen t) _⟩

/-- A caller who begins to listen for the answer takes a turn, if it is not there yet. -/
theorem plays_hear {t u : Ticket} {activity : Activity Action} (hturn : Listens t u activity) :
    Plays k i (Does u activity) (listen.hear k t) fun _ => Does u activity := by
  refine plays_onBroker ?_ ?_ fun hne => absurd rfl hne
  · rintro - x ts _ hflushed ⟨rfl, htask⟩
    by_cases hposted : x.broker.replies.lookup t = some .posted
    · obtain ⟨hbroker, hkept⟩ := hturn x hposted
      have hgo : x.turn u .goOn = x.goOn u activity := Traffic.turn_some htask .goOn
      exact ⟨u, .goOn, rfl, by rw [hgo, hbroker],
        fun x' htasks _ => ⟨rfl, by rw [htasks, hgo, hkept]⟩⟩
    · have hstays : x.turn u (.begin .list) = x := Traffic.turn_some htask (.begin .list)
      refine ⟨u, .begin .list, rfl, ?_, fun x' htasks _ => ⟨rfl, by rw [htasks, hstays, htask]⟩⟩
      rw [hstays, Broker.listen_of_not_posted hposted, hflushed]
  · rintro - x ts ⟨-, htask⟩ hnone
    cases (hnone u).symm.trans htask

theorem plays_hear_carried {t : Ticket} {shows : Activity Action → Prop}
    (hturn : ∀ u activity, shows activity → Listens t u activity) :
    Plays k i (fun x => Carries k x j shows) (listen.hear j t)
      fun _ x => Carries k x j shows := by
  by_cases hj : j = k
  · subst hj
    intro x ts w h hcarries hown
    obtain ⟨u, activity, rfl, htask, hshows⟩ := hcarries.task
    refine (plays_hear (hturn u activity hshows) x _ w h ⟨rfl, htask⟩ hown).mono ?_
    exact fun x' ts' ⟨hts', htask'⟩ => ⟨ts', .refl _, Carries.of_task hts' htask' hshows⟩
  · exact .calm (calms_onBroker hj _) (Held.local_carries k j shows)

/-- A registration that listens is where it was. -/
theorem plays_listen_registration (t u : Ticket) (service : Service) (name : String)
    (stage : Registration Action) :
    Plays k i (Does u (.registering name stage)) (listen (.registration k t service stage))
      fun _ => Does u (.registering name stage) := by
  have hstays : Plays k i (Does u (.registering name stage)) (Pure.pure () : Sim Unit)
      fun _ => Does u (.registering name stage) := .pure fun _ _ h => h
  cases stage with
  | reserving own call =>
      cases call with
      | sending t c => exact hstays
      | awaiting t => exact plays_hear (listens_reserving t u name own)
  | settingUp t handle => exact hstays
  | discarding t handle reason => exact hstays
  | confirming handle call =>
      cases call with
      | sending t c => exact hstays
      | awaiting t => exact plays_hear (listens_confirming t u name handle)

/-- A dispatch that listens for its snapshot is where it was. -/
theorem plays_listen_asking (u : Ticket) (event : Event) (call : EventHub.Call Action) :
    Plays k i (Does u (.firing event call)) (listen (.asking k event call))
      fun _ => Does u (.firing event call) := by
  cases call with
  | sending t c => exact .pure fun _ _ h => h
  | awaiting t => exact plays_hear (listens_firing t u event)

theorem plays_listen (w : Wait a) :
    Plays k i (fun x => w.Holds k x) (listen w) fun _ x => w.Holds k x := by
  have hstays : Plays k i (fun x => w.Holds k x) (Pure.pure () : Sim Unit)
      fun _ x => w.Holds k x := .pure fun _ _ h => h
  cases w with
  | registration j u service stage =>
      cases stage with
      | reserving name call =>
          cases call with
          | sending t c => exact hstays
          | awaiting t =>
              refine plays_hear_carried ?_
              rintro u _ ⟨own, rfl⟩
              exact listens_reserving t u own name
      | settingUp t handle => exact hstays
      | discarding t handle reason => exact hstays
      | confirming handle call =>
          cases call with
          | sending t c => exact hstays
          | awaiting t =>
              refine plays_hear_carried ?_
              rintro u _ ⟨name, rfl⟩
              exact listens_confirming t u name handle
  | asking j event call =>
      cases call with
      | sending t c => exact hstays
      | awaiting t =>
          refine plays_hear_carried ?_
          rintro u _ rfl
          exact listens_firing t u event
  | subscribing j call =>
      cases call with
      | sending t c => exact hstays
      | awaiting t =>
          refine plays_hear_carried ?_
          rintro u _ ⟨service, listener, rfl⟩ x hposted
          simp only [Traffic.goOn, Broker.resume_posted hposted]
          exact ⟨rfl, x.put_tasks u (x.broker.listen t) _⟩
  | listing j call =>
      cases call with
      | sending t c => exact hstays
      | awaiting t =>
          refine plays_hear_carried ?_
          rintro u _ rfl x hposted
          simp only [Traffic.goOn, Broker.resume_posted hposted]
          exact ⟨rfl, x.put_tasks u (x.broker.listen t) _⟩
  | _ => exact hstays

section Taking

variable {R : Future a → Held} (hlocal : ∀ f, (R f).Local)
  (hlisten : ∀ w, Plays k i (R (.wait w)) (listen w) fun _ => R (.wait w))

include hlocal hlisten

theorem plays_taken (w : Wait a) (p : Polled a) :
    Plays k i (R p.future) (taken w p) fun p => R p.future := by
  cases p with
  | next f => exact .bind (.calm (calms_spend 1) (hlocal f)) fun _ => .pure fun _ _ h => h
  | pending next =>
      have hstays : Plays k i (R (.wait next)) (Pure.pure (Polled.pending next))
          fun p => R p.future := .pure fun _ _ h => h
      rw [taken]
      split
      · refine .bind (.calm (calms_spend 1) (hlocal _)) fun _ => ?_
        refine .bind (.calm calms_isSpent (hlocal _)) fun spent => ?_
        split
        · exact .bind (.calm calms_defer (hlocal _)) fun _ => hstays
        · exact .bind (hlisten next) fun _ => hstays
      · exact hstays

/-- A look that is put off leaves the wait where it is. -/
theorem plays_take {w : Wait a} {look : Sim (Polled a)}
    (hlook : Plays k i (R (.wait w)) look fun p => R p.future) :
    Plays k i (R (.wait w)) (take w look) fun p => R p.future := by
  refine .bind (.calm calms_isSpent (hlocal _)) fun spent => ?_
  split
  · exact .bind (.calm calms_defer (hlocal _)) fun _ => .pure fun _ _ h => h
  · exact .bind hlook fun p => plays_taken hlocal hlisten w p

end Taking

/-- What comes of a look at a computation is what has become of it. -/
theorem plays_of {P : Held} {m : Sim (Future a)} {R : Future a → Held} (hm : Plays k i P m R) :
    Plays k i P (Polled.of <$> m) fun p => R p.future :=
  hm.map fun f _ _ h => by rwa [future_of]

/-- What is looked at is held as it was. -/
theorem plays_take_held {w : Wait a} {look : Sim (Polled a)}
    (hlook : Plays k i (fun x => w.Holds k x) look fun p x => p.future.Holds k x) :
    Plays k i (fun x => w.Holds k x) (take w look) fun p x => p.future.Holds k x :=
  plays_take (R := fun f x => f.Holds k x) (w := w) (Held.local_future k)
    (fun next => plays_listen next) hlook

end Looking

end Sim

end Simulation

end EventHub
