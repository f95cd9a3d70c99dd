import EventHub.Proofs.Replay.Calls

/-!
The turns of computations: each begins, is looked at, goes on with a result or is given
up, and lands with the tickets that the traffic says it holds.
-/

namespace EventHub.Simulation

open EventHub.Script

variable {k i : Nat}

namespace Sim

variable {a b : Shape} {j : Nat}

section Begin

theorem plays_fire (j : Nat) (t : Ticket) (e : Event) :
    Plays k i (Fresh t) (dispatching j (Dispatch.start · t e)) fun f x => f.Holds k x := by
  refine plays_dispatching ?_ fun _ _ _ _ _ => ⟨_, rfl⟩
  intro _ x ts _ ⟨hts, hnone⟩
  exact ⟨t, .begin (.fire e), x, e, hts, Traffic.turn_none hnone _⟩

theorem plays_register (j : Nat) (t : Ticket) (service : Service) :
    Plays k i (Fresh t)
      (registering j t service (Registration.start · t (serviceName service)))
      fun f x => f.Holds k x := by
  refine plays_registering t service ?_ fun _ _ _ _ _ => ⟨_, rfl⟩
  intro _ x ts _ ⟨hts, hnone⟩
  exact ⟨t, .begin (.register (serviceName service)), x, serviceName service, hts,
    Traffic.turn_none hnone _⟩

theorem plays_subscribe (j : Nat) (t : Ticket) (handle : Handle) (listener : Listener Action) :
    Plays k i (Fresh t) (subscribing j (·.call t (.subscribe handle listener)))
      fun f x => f.Holds k x := by
  refine plays_subscribing ?_ fun _ _ _ _ _ => ⟨_, rfl⟩
  intro _ x ts _ ⟨hts, hnone⟩
  exact ⟨t, .begin (.subscribe handle listener), x, handle, listener, hts,
    Traffic.turn_none hnone _⟩

theorem plays_list (j : Nat) (t : Ticket) :
    Plays k i (Fresh t) (listing j (·.call t .services)) fun f x => f.Holds k x := by
  refine plays_listing ?_ fun _ _ _ _ _ => ⟨_, rfl⟩
  intro _ x ts _ ⟨hts, hnone⟩
  exact ⟨t, .begin .list, x, hts, Traffic.turn_none hnone _⟩

theorem plays_close (j : Nat) {P : Held} (hP : P.Local) :
    Plays k i P (onBroker j fun b => (b.close, ())) fun _ => P :=
  plays_onBroker_ticketless (fun _ _ => ⟨[.close], _, rfl, rfl, rfl, rfl⟩) hP

theorem plays_perform (context : Context) (s : Step) :
    Plays k i .none (perform context s) fun f x => f.Holds k x := by
  by_cases hs : AsksBroker s
  · cases s with
    | broker j s =>
        cases s with
        | services =>
            refine .bind plays_ticket fun t => .bind (plays_list j t) fun f => .pure ?_
            exact fun x ts h => ⟨ts, [], by simp, h, rfl⟩
        | shut =>
            refine .bind (plays_close j Held.local_none) fun _ => ?_
            exact .quit fun _ => rfl
        | _ => exact hs.elim
    | _ => exact hs.elim
  · exact .tame (tame_perform context hs)

theorem plays_begin {a : Shape} (b : Begin a) (hb : b.discardsAt? ≠ some k) :
    Plays k i .none (begin b) fun f x => f.Holds k x := by
  by_cases hbegins : Begins b
  · cases b with
    | step context s =>
        rw [Sim.begin]
        refine .bind (.calm (calms_writeAll _) Held.local_none) fun _ => ?_
        refine .bind (.calm (calms_needs s) Held.local_none) fun things => ?_
        split
        · exact plays_perform context s
        · exact .tame (tame_taking _ rfl)
    | perform context s =>
        rw [Sim.begin]
        exact plays_perform context s
    | register j service =>
        rw [Sim.begin]
        exact .bind plays_ticket fun t => plays_register j t service
    | subscribe j handle listener =>
        rw [Sim.begin]
        exact .bind plays_ticket fun t => plays_subscribe j t handle listener
    | fire j e =>
        rw [Sim.begin]
        exact .bind plays_ticket fun t => plays_fire j t e
    | discard j id =>
        rw [Sim.begin]
        have hj : j ≠ k := fun heq => hb (congrArg some heq)
        exact .tame (.bind calms_ticket fun t => .pure fun x => ⟨hj, rfl⟩)
    | _ => exact hbegins.elim
  · exact .tame (tame_begin hbegins)

end Begin

section Resume

/-- What is held by code that goes on without a broker. -/
theorem holds_of_continues {a b : Shape} {frame : Frame a b} (hframe : ¬ Continues frame)
    {x : Traffic Action} {ts : List Ticket} (h : frame.Holds k x ts) (x' : Traffic Action) :
    frame.Holds k x' [] := by
  cases frame with
  | andThen next => exact ⟨h.1, rfl⟩
  | settingUp => exact absurd trivial hframe
  | delivered => exact absurd trivial hframe
  | stopDrained => exact absurd trivial hframe
  | _ => exact rfl

/-- A registration that is given up leaves a slot that nobody decides, or none. -/
theorem plays_giveUp_registration {stage : Registration Action} :
    Plays k i
      (fun x => Carries k x j fun a => ∃ name, a = .registering name stage)
      (onBroker j (Registration.giveUp · stage) >>= discardLater j) fun _ => .none := by
  let given (orphan : Option ServiceId) : Held := fun x ts =>
    True ∧ (j = k → ∀ id ∈ orphan, id ∈ x.orphans)
  refine Plays.drop (Q := fun _ _ _ => True) (.bind (Q := given) (plays_onBroker ?_ ?_ ?_) ?_)
  · rintro rfl x ts _ _ hcarries
    obtain ⟨u, a, hts, htask, name, rfl⟩ := hcarries.task
    refine ⟨u, .giveUp, hts, ?_, ?_⟩
    · rw [Traffic.turn_some htask]
      rfl
    · intro x' _ horphans
      refine ⟨trivial, ?_⟩
      intro _ id hid
      rw [horphans, Traffic.turn_some htask]
      exact List.mem_append_right _ (by simpa using hid)
  · rintro rfl x ts hcarries hnone
    exact hcarries.elim hnone
  · exact fun hne _ _ => ⟨trivial, fun hj => absurd hj hne⟩
  · exact fun orphan => plays_discardLater orphan fun _ _ _ _ _ => trivial

theorem plays_dropFrame {a b : Shape} (frame : Frame a b) :
    Plays k i (fun x => frame.Holds k x) (dropFrame frame) fun _ => .none := by
  cases frame with
  | settingUp j t handle service => exact plays_giveUp_registration
  | _ => exact (Plays.calm (.pure ()) (Held.local_frame k _)).drop

theorem plays_decided (j : Nat) (t : Ticket) (handle : Handle) (service : Service)
    (outcome : Outcome (Except ServiceError Unit)) :
    Plays k i (fun x => (Frame.settingUp j t handle service).Holds k x)
      (registering j t service (Registration.setUpEnded · t handle outcome))
      fun f x => f.Holds k x := by
  refine plays_registering t service ?_ ?_
  · rintro rfl x ts _ hholds
    obtain ⟨u, a, hts, htask, name, rfl⟩ := Carries.task hholds
    exact ⟨u, .setUpEnded outcome, x, name, hts, Traffic.turn_some htask _⟩
  · rintro rfl x ts hholds hnone
    exact Carries.elim hholds hnone

theorem plays_setUpEnded (j : Nat) (t : Ticket) (handle : Handle) (service : Service)
    (outcome : Outcome (Except ServiceError Unit)) :
    Plays k i (fun x => (Frame.settingUp j t handle service).Holds k x)
      (setUpEnded j t handle service outcome) fun f x => f.Holds k x := by
  rw [setUpEnded]
  split
  · exact .bind (plays_dropFrame _) fun _ => .quit (.panic _)
  · exact plays_decided j t handle service outcome

theorem plays_ended (j : Nat) (d : Dispatch Action) (s : Subscription Action)
    (deadline : Option Duration) (verdict : Verdict) :
    Plays k i (fun x => (Frame.delivered j d s deadline).Holds k x)
      (dispatching j (Dispatch.ended · d s verdict)) fun f x => f.Holds k x := by
  refine plays_dispatching ?_ ?_
  · rintro rfl x ts hlawful hholds
    obtain ⟨u, a, hts, htask, rfl⟩ := Carries.task hholds
    have hmatch := hlawful.mismatch? htask
    refine ⟨u, .listenerEnded verdict, x.note u (.ended s verdict), d.event, hts, ?_⟩
    rw [Traffic.turn_some htask]
    simp only [Traffic.act, Traffic.listenerEnded, hmatch]
  · rintro rfl x ts hholds hnone
    exact Carries.elim hholds hnone

theorem plays_stopDrained (announced : Except BrokerError Unit)
    (outcome : Outcome (Except RuntimeError Unit)) :
    Plays k i (fun x => (Frame.stopDrained announced).Holds k x)
      (resume (.stopDrained announced) outcome) fun f x => f.Holds k x := by
  cases outcome with
  | returned v =>
      rw [resume]
      refine .bind (plays_close 0 (Held.local_frame k (.stopDrained announced))) fun _ => ?_
      exact .quit (.value _)
  | panicked payload =>
      rw [resume]
      · exact .quit (.panic _)
      all_goals
        intros
        rename_i ha _ _
        cases ha

theorem plays_resume {a b : Shape} (frame : Frame a b) (outcome : Outcome a.Value) :
    Plays k i (fun x => frame.Holds k x) (resume frame outcome) fun f x => f.Holds k x := by
  by_cases hframe : Continues frame
  · cases frame with
    | settingUp j t handle service =>
        rw [resume]
        exact plays_setUpEnded j t handle service outcome
    | delivered j d s deadline =>
        cases outcome with
        | returned v => cases v <;> exact plays_ended j d s deadline _
        | panicked payload => exact plays_ended j d s deadline _
    | stopDrained announced => exact plays_stopDrained announced outcome
    | _ => exact hframe.elim
  · cases outcome with
    | returned v =>
        intro x ts w h hholds hown
        have htame := tame_resume hframe (holds_of_continues hframe hholds) v
        exact Plays.tame (P := fun x => frame.Holds k x) htame x ts w h hholds hown
    | panicked payload => exact .tame (tame_resume_panicked hframe payload)

end Resume

end Sim

end EventHub.Simulation
