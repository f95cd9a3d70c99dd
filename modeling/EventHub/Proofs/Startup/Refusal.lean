import EventHub.Proofs.Panics.Registrations
import EventHub.Proofs.Startup.Order

/-!
At a closed broker. An event and a registration are refused at once there, so a startup that
begins there fails in its first turn. And a startup can fail with its broker only.
-/

namespace EventHub.Simulation

open EventHub.Script

/-- The broker of the application takes nothing any more. -/
def World.IsShut (w : World) : Prop := ∀ b, w.brokers[0]? = some b → b.isClosed = true

namespace Sim

/-- What an action at a broker makes of it is found there. -/
theorem found_onBroker {α : Type} {k : Nat} {act : Broker Action → Broker Action × α} {w : World}
    {b : Broker Action} (hb : ((onBroker k act).run w).2.brokers[k]? = some b) :
    ∃ before, w.brokers[k]? = some before ∧ b = (act before).1.flushed := by
  cases hbefore : w.brokers[k]? with
  | none =>
      rw [onBroker_absent hbefore, hbefore] at hb
      cases hb
  | some before =>
      obtain ⟨-, hcalm⟩ := onBroker_found hbefore act
      have hset : (w.brokers.set! k (act before).1.flushed)[k]? = some (act before).1.flushed :=
        getElem?_set_self hbefore _
      rcases hcalm.brokers with hsame | ⟨hnone, -⟩
      · cases hb.symm.trans (hsame.trans hset)
        exact ⟨before, rfl, rfl⟩
      · cases hset.symm.trans hnone

/-- An action that leaves a closed broker closed leaves the world shut. -/
theorem isShut_onBroker {α : Type} {act : Broker Action → Broker Action × α} {w : World}
    (hshut : w.IsShut) (hstays : ∀ b : Broker Action, b.isClosed = true →
      (act b).1.isClosed = true) : ((onBroker 0 act).run w).2.IsShut := by
  intro b hb
  obtain ⟨before, hbefore, rfl⟩ := found_onBroker hb
  exact hstays before (hshut before hbefore)

/-- A broker that does not exist is as good as a closed one. -/
theorem isClosed_getD {w : World} (hshut : w.IsShut) :
    (w.brokers[0]?.getD noBroker).isClosed = true := by
  cases hb : w.brokers[0]? with
  | none => rfl
  | some b => exact hshut b hb

/-- A closed broker refuses an event at once, and stays closed. -/
theorem begin_fire_shut {w : World} (hshut : w.IsShut) (e : Event) :
    ∃ y, (begin (.fire 0 e)).run w = (.value (.error .closed), y) ∧ y.IsShut := by
  let t : Ticket := (ticket.run w).1
  let act (b : Broker Action) : Broker Action × Dispatch.Next Action × Option Duration :=
    ((Dispatch.start b t e).1,
      ((Dispatch.start b t e).2, (Dispatch.start b t e).1.listenerDeadline))
  have hrefuses {b : Broker Action} (hclosed : b.isClosed = true) :
      Dispatch.start b t e = (b, .finished (.error .closed)) := by
    simp [Dispatch.start, Broker.call, hclosed, Dispatch.asked]
  refine ⟨((onBroker 0 act).run (ticket.run w).2).2, ?_, ?_⟩
  · have hclosed := isClosed_getD (w := (ticket.run w).2) hshut
    have hnext : ((onBroker 0 act).run (ticket.run w).2).1.1 = .finished (.error .closed) :=
      (congrArg Prod.fst (onBroker_fst 0 act _)).trans (congrArg Prod.snd (hrefuses hclosed))
    rw [begin_fire_eq, run_bind, dispatching, run_bind]
    exact congrArg (fun next => (dispatched 0 _ next).run _) hnext
  · refine isShut_onBroker (w := (ticket.run w).2) hshut fun b hclosed => ?_
    have hstays : (Dispatch.start b t e).1 = b := congrArg Prod.fst (hrefuses hclosed)
    exact (congrArg Broker.isClosed hstays).trans hclosed

/-- A closed broker refuses a registration at once, and stays closed. -/
theorem begin_register_shut {w : World} (hshut : w.IsShut) (service : Service) :
    ∃ y, (begin (.register 0 service)).run w = (.value (.error .closed), y) ∧ y.IsShut := by
  let t : Ticket := (ticket.run w).1
  let act (b : Broker Action) : Registration.Result Action :=
    Registration.start b t (serviceName service)
  have hrefuses {b : Broker Action} (hclosed : b.isClosed = true) :
      ∃ noted : Broker Action, noted.isClosed = true ∧
        act b = { broker := noted, next := .finished (.error .closed) } := by
    let noted := b.note .debug "attempting to register service" [("service", serviceName service)]
    have hnoted : noted.isClosed = true := hclosed
    refine ⟨noted, hnoted, ?_⟩
    change Registration.reserved (serviceName service) t (noted.call t _) = _
    rw [Broker.call, if_pos hnoted]
    rfl
  refine ⟨((onBroker 0 (acted act)).run (ticket.run w).2).2, ?_, ?_⟩
  · obtain ⟨noted, -, hact⟩ := hrefuses (isClosed_getD (w := (ticket.run w).2) hshut)
    have hanswer : ((onBroker 0 (acted act)).run (ticket.run w).2).1 =
        (.finished (.error .closed), none) := by
      rw [onBroker_fst, acted, hact]
    rw [begin, run_bind, registering_eq, run_bind, hanswer]
    rfl
  · refine isShut_onBroker (w := (ticket.run w).2) hshut fun b hclosed => ?_
    obtain ⟨noted, hnoted, hact⟩ := hrefuses hclosed
    rw [acted, hact]
    exact hnoted

end Sim

variable {v w w' : World} {rest : List (World × World)}

section Refused

variable {between : Future .started → World → World → Prop} (hrefl : ∀ f w, between f w w)

include hrefl

/-- A startup that begins at a closed broker is refused, its first service or its announcement. -/
theorem startup_refused {services : List Service} {last : World}
    {o : Outcome (Except RuntimeError (List String))}
    (h : Performs between 4 v (.begin (.start services)) ((w, w') :: rest) o)
    (hlast : ((w, w') :: rest).getLast?.map Prod.snd = some last) (hshut : w.IsShut) :
    o = .returned (.error (.broker .closed)) ∧ last.IsShut := by
  obtain ⟨_, _, _, hturns, -, hbegun⟩ := h.of_begin hrefl
  cases hturns
  have hbegin : (Sim.begin (.start services)).run w = (Sim.startNext
      (Startup.advance { remaining := w.preset ++ services : Startup Service })).run w := by
    rw [Sim.begin]
    rfl
  rw [hbegin] at hbegun
  -- whichever is asked first ends the startup, and nothing reopens the broker
  have hended {y u' : World} {later : List (World × World)} (hy : y.IsShut)
      (hruns : Performs between 1 y (.value (.error (.broker .closed))) ((y, u') :: later) o)
      (hends : (u' :: later.map Prod.snd) <:+ w' :: rest.map Prod.snd) :
      o = .returned (.error (.broker .closed)) ∧ last.IsShut := by
    obtain ⟨rfl, rfl, rfl⟩ := hruns.of_ended
    obtain rfl : u' = last :=
      Option.some.inj ((last_of_suffix (u := u') (v := w) hends).trans hlast)
    exact ⟨rfl, hy⟩
  cases hremaining : w.preset ++ services with
  | nil =>
      rw [hremaining] at hbegun
      obtain ⟨y, hvalue, hy⟩ := Sim.begin_fire_shut (w := w.numbering) hshut ⟨w.nextSeq, .startup⟩
      obtain ⟨u', later, hruns, hends⟩ := hbegun.of_value hrefl hvalue
      have hresumed :
          (Sim.resume (.announced { remaining := [] }) (.returned (.error .closed))).run y =
            (.value (.error (.broker .closed)), y) := rfl
      rw [hresumed] at hruns
      exact hended hy hruns hends
  | cons service more =>
      rw [hremaining] at hbegun
      obtain ⟨y, hvalue, hy⟩ := Sim.begin_register_shut hshut service
      obtain ⟨u', later, hruns, hends⟩ := hbegun.of_value hrefl hvalue
      have hresumed :
          (Sim.resume (.decided { remaining := more }) (.returned (.error .closed))).run y =
            (.value (.error (.broker .closed)), y.noting []) := rfl
      rw [hresumed] at hruns
      exact hended (y := y.noting []) hy hruns hends

end Refused

/-! ### How a startup fails -/

theorem Sim.decided_cases (s : Startup Service) (result : Except BrokerError String) :
    (∃ admitted, s.decided result = Startup.advance { s with admitted }) ∨
      ∃ e, s.decided result = .failed (.broker e) := by
  rw [Startup.decided.eq_def]
  split
  · exact Or.inl ⟨_, rfl⟩
  · exact Or.inl ⟨_, rfl⟩
  · exact Or.inr ⟨_, rfl⟩

/-- A startup can only fail with its broker. -/
theorem broker_of_startNext {s : Startup Service} {turns : List (World × World)} {e : RuntimeError}
    (h : Runs ((Sim.startNext s.advance).run v).1 turns (.returned (.error e))) :
    ∃ error, e = .broker error := by
  obtain ⟨services, admitted⟩ := s
  induction services generalizing admitted v turns with
  | nil =>
      have hfire : Runs (.bind (.begin (.fire 0 ⟨v.nextSeq, .startup⟩))
          (.announced (⟨[], admitted⟩ : Startup Service))) turns (.returned (.error e)) := h
      obtain ⟨_, ended, u, _, _, -, -, hruns, -⟩ := hfire.of_bind
      cases ended with
      | panicked payload => cases hruns.of_done.1
      | returned result =>
          cases result with
          | error error =>
              cases hruns.of_done.1
              exact ⟨error, rfl⟩
          | ok report => cases hruns.of_done.1
  | cons service services ih =>
      have hregister : Runs (.bind (.begin (.register 0 service))
          (.decided (⟨services, admitted⟩ : Startup Service))) turns (.returned (.error e)) := h
      obtain ⟨_, ended, u, _, _, -, -, hruns, -⟩ := hregister.of_bind
      cases ended with
      | panicked payload => cases hruns.of_done.1
      | returned result =>
          have hruns : Runs ((Sim.startNext (Startup.decided ⟨services, admitted⟩
              (result.map (·.text)))).run (u.noting _)).1 _ (.returned (.error e)) := hruns
          rcases Sim.decided_cases ⟨services, admitted⟩ (result.map (·.text)) with
            ⟨admitted', hnext⟩ | ⟨error, hnext⟩
          · rw [hnext] at hruns
            exact ih _ hruns
          · rw [hnext] at hruns
            cases hruns.of_done.1
            exact ⟨error, rfl⟩

theorem broker_of_start {services : List Service} {turns : List (World × World)} {e : RuntimeError}
    (h : Runs (.begin (.start services)) turns (.returned (.error e))) :
    ∃ error, e = .broker error := by
  obtain ⟨_, w, _, _, -, hruns⟩ := h.of_begin
  rw [Sim.begin] at hruns
  exact broker_of_startNext (s := ⟨w.preset ++ services, []⟩) hruns

end EventHub.Simulation
