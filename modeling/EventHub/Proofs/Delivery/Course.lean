import EventHub.Proofs.Delivery.Accounting
import EventHub.Proofs.Panics.Registrations
import EventHub.Proofs.Stores.Shutdown

/-!
The course of a dispatch. A listener starts in the very moment in which the one before it has
ended, and from there it has the time that the broker gives to each. A dispatch is never held up
but by the listener that it has called, and not by one that has ended or is overdue. So it
returns if each of its listeners ends or is overdue at some time.
-/

namespace EventHub

namespace Broker

variable {L : Type}

theorem listenerDeadline_resume (b : Broker L) (call : Call L) :
    (b.resume call).1.listenerDeadline = b.listenerDeadline := by
  cases call with
  | sending t c =>
      rw [resume]
      generalize b.mailbox.send t ⟨c, some t⟩ = sent
      obtain ⟨mailbox, posted⟩ := sent
      cases posted <;> rfl
  | awaiting t =>
      rw [resume]
      split
      · rw [listen]
        split <;> rfl
      all_goals rfl

end Broker

namespace Dispatch

variable {L : Type}

theorem listenerDeadline_advance (b : Broker L) (d : Dispatch L) :
    (advance b d).1.listenerDeadline = b.listenerDeadline := by
  rw [advance]
  cases d.remaining <;> rfl

theorem listenerDeadline_ended (b : Broker L) (d : Dispatch L) (s : Subscription L)
    (verdict : Verdict) : (ended b d s verdict).1.listenerDeadline = b.listenerDeadline := by
  have hsettled : (settle b d s verdict).1.listenerDeadline = b.listenerDeadline := by
    unfold settle
    cases verdict.result <;> rfl
  exact (listenerDeadline_advance _ _).trans hsettled

end Dispatch

namespace Simulation

variable {a : Shape} {broker : Nat} {event : Event} {turns : Nat → Nat × World}

/-- The time that a broker gives to each listener. -/
def World.listenerDeadline (w : World) (broker : Nat) : Option Duration :=
  (w.brokers[broker]?.getD Sim.noBroker).listenerDeadline

/-- How a dispatch goes on in this world: with its report, or with its next listener, whose
time runs from now on. -/
inductive Serving (broker : Nat) (w : World) (d : Dispatch Action) : Future .report → Prop
  | reports (hremaining : d.remaining = []) : Serving broker w d (.value (.ok d.report))
  | calls (s : Subscription Action) (rest : List (Subscription Action)) (t : Ticket)
      (hremaining : d.remaining = s :: rest) : Serving broker w d
        (.bind ((listenerCode s d.event).guarded ((w.listenerDeadline broker).map fun span =>
            { ticket := t, deadline := w.clock + span.timerMillis }))
          (.delivered broker { d with remaining := rest } s (w.listenerDeadline broker)))

/-- What becomes of a computation in these turns. Each is of some length and begins in some
world. -/
def Future.onward (f : Future a) (turns : Nat → Nat × World) : Nat → Future a
  | 0 => f
  | k + 1 => ((Sim.poll (turns k).1 (onward f turns k)).run (turns k).2).1

/-- The turns from the midst of one of them on, where so much of it was left. -/
def midst (turns : Nat → Nat × World) (k n : Nat) (w : World) : Nat → Nat × World
  | 0 => (n, w)
  | j + 1 => turns (k + 1 + j)

/-- A listener that was called: the turns that its code had, and what it came to in them. -/
structure Invocation where
  subscription : Subscription Action
  own : List (World × World)
  code : Future .listener

namespace Invocation

/-- The listener was called for this event. -/
def Ran (event : Event) (c : Invocation) : Prop :=
  Advances (listenerCode c.subscription event) c.own c.code

/-- How a call ended: the listener returned, it broke off, or it had not ended when the time that
the broker gives it was over, which is counted from its own first turn. -/
inductive Ends (broker : Nat) (c : Invocation) : Verdict → Prop
  | returned (result : Except ListenerError Unit) (hcode : c.code = .done (.returned result)) :
      Ends broker c (.returned result)
  | panicked (payload : Payload) (hcode : c.code = .done (.panicked payload)) :
      Ends broker c (.panicked payload)
  | overdue (span : Duration) (first last : World × World) (hgoes : ∀ o, c.code ≠ .done o)
      (hfirst : c.own.head? = some first) (hlast : c.own.getLast? = some last)
      (hdeadline : first.1.listenerDeadline broker = some span)
      (hdue : first.1.clock + span.timerMillis ≤ last.2.clock) : Ends broker c (.overdue span)

end Invocation

/-- A report that accounts for one call of each listener that was found, in their order. -/
def Reported (broker : Nat) (event : Event) (found : List (Subscription Action))
    (r : Report) : Prop :=
  ∃ calls : List (Invocation × Verdict), calls.map (·.1.subscription) = found ∧
    (∀ c ∈ calls, c.1.Ran event ∧ c.1.Ends broker c.2) ∧
    r.Accounts event (calls.map fun c => (c.1.subscription.service.name, c.2.result))

/-- From some turn on, one listener takes all of them: it has not ended by the end of any, and
its time is not over either, as far as the task could look at that. -/
def HeldUp (broker : Nat) (event : Event) (found : List (Subscription Action))
    (turns : Nat → Nat × World) : Prop :=
  ∃ K, ∃ s ∈ found, ∀ k ≥ K, ∃ (own : List (World × World)) (code : Future .listener)
    (first last : World × World), Advances (listenerCode s event) own code ∧
      own.head? = some first ∧ own.getLast? = some last ∧ last.1 = (turns k).2 ∧
      (∀ o, code ≠ .done o) ∧
      ∀ span, first.1.listenerDeadline broker = some span → (turns k).2.allowance ≠ some 0 →
        last.2.clock < first.1.clock + span.timerMillis

/-! ### One turn of a call -/

theorem Advances.snoc {f g g' : Future a} {own : List (World × World)} {w w' : World} {n : Nat}
    (h : Advances f own g) (hturn : (Sim.poll n g).run w = (g', w')) :
    Advances f (own ++ [(w, w')]) g' := by
  induction h with
  | refl f => exact .turn n hturn (.refl _)
  | turn n' hturn' _ ih => exact .turn n' hturn' (ih hturn)

namespace Sim

/-- The time that a broker gives to listeners is what the action leaves it. -/
theorem listenerDeadline_onBroker {α : Type} (index : Nat)
    (act : Broker Action → Broker Action × α) (w : World)
    (hkeeps : (act (w.brokers[index]?.getD noBroker)).1.listenerDeadline =
      w.listenerDeadline index) :
    ((onBroker index act).run w).2.listenerDeadline index = w.listenerDeadline index := by
  cases hb : w.brokers[index]? with
  | none => rw [onBroker_absent hb]
  | some b =>
      obtain ⟨-, hcalm⟩ := onBroker_found hb act
      have hset : (w.brokers.set! index (act b).1.flushed)[index]? = some (act b).1.flushed :=
        getElem?_set_self hb _
      rw [hb] at hkeeps
      rcases hcalm.brokers with hsame | ⟨hnone, -⟩
      · rw [World.listenerDeadline, hsame]
        dsimp only
        rw [hset]
        exact hkeeps
      · cases hset.symm.trans hnone

theorem serving_dispatched (broker : Nat) (d : Dispatch Action) (w : World) :
    Serving broker ((dispatched broker (w.listenerDeadline broker) d.next).run w).2 d
      ((dispatched broker (w.listenerDeadline broker) d.next).run w).1 := by
  cases hremaining : d.remaining with
  | nil =>
      rw [Dispatch.next, hremaining]
      exact .reports hremaining
  | cons s rest =>
      have hcalls (v : World) : Serving broker v d _ :=
        .calls s rest (ticket.run w).1 hremaining
      rw [Dispatch.next, hremaining]
      cases hdeadline : w.listenerDeadline broker with
      | none =>
          have hcall := hcalls w
          rw [hdeadline] at hcall
          exact hcall
      | some span =>
          have hcall := hcalls (ticket.run w).2
          rw [show (ticket.run w).2.listenerDeadline broker = some span from hdeadline] at hcall
          exact hcall

/-- A dispatch goes on in the world that its broker leaves, with the time that the broker gives. -/
theorem serving_dispatching {act : Broker Action → Broker Action × Dispatch.Next Action}
    {d : Dispatch Action} (w : World)
    (hnext : (act (w.brokers[broker]?.getD noBroker)).2 = d.next)
    (hkeeps : (act (w.brokers[broker]?.getD noBroker)).1.listenerDeadline =
      w.listenerDeadline broker) :
    Serving broker ((dispatching broker act).run w).2 d ((dispatching broker act).run w).1 := by
  have hfst := onBroker_fst broker
    (fun b => ((act b).1, ((act b).2, (act b).1.listenerDeadline))) w
  have hdeadline := listenerDeadline_onBroker broker
    (fun b => ((act b).1, ((act b).2, (act b).1.listenerDeadline))) w hkeeps
  rw [dispatching, run_bind]
  generalize (onBroker broker fun b => ((act b).1, ((act b).2,
    (act b).1.listenerDeadline))).run w = acted at hfst hdeadline
  obtain ⟨⟨next, deadline⟩, v⟩ := acted
  obtain ⟨hnext', hdeadline'⟩ := Prod.mk.inj hfst
  have hserving := serving_dispatched broker d v
  rw [hdeadline, ← hkeeps, ← hdeadline', ← hnext, ← hnext'] at hserving
  exact hserving

/-- Whatever has become of a listener, the next one starts at once. -/
theorem serving_delivered (broker : Nat) (d : Dispatch Action) (s : Subscription Action)
    (deadline : Option Duration) (ended : Outcome (Option (Except ListenerError Unit)))
    (w : World) : Serving broker ((resume (.delivered broker d s deadline) ended).run w).2
      (d.settled s (verdictOf deadline ended))
      ((resume (.delivered broker d s deadline) ended).run w).1 := by
  rw [resume_delivered]
  exact serving_dispatching w (Dispatch.ended_snd _ d s _) (Dispatch.listenerDeadline_ended _ d s _)

/-- When the registry has answered, the first listener starts at once. -/
theorem serving_found (event : Event) (w : World) {call : EventHub.Call Action} {b : Broker Action}
    {found : List (Subscription Action)}
    (hanswer : (w.brokers[broker]?.getD noBroker).resume call =
      (b, .finished (.ok (.subscriptions found)))) :
    Serving broker ((dispatching broker (Dispatch.resume · event call)).run w).2
      (.fresh event found) ((dispatching broker (Dispatch.resume · event call)).run w).1 := by
  have hkeeps := (w.brokers[broker]?.getD noBroker).listenerDeadline_resume call
  rw [hanswer] at hkeeps
  refine serving_dispatching w ?_ ?_
  · rw [Dispatch.resume, hanswer]
    exact Dispatch.advance_snd b (.fresh event found)
  · rw [Dispatch.resume, hanswer, World.listenerDeadline, ← hkeeps]
    exact Dispatch.listenerDeadline_advance b (.fresh event found)

/-- An alarm that was looked at and did not ring is not due. -/
theorem lt_of_rings_eq_false {alarm : Alarm} {w : World}
    (h : ((rings alarm true).run w).1 = false) : w.clock < alarm.deadline := by
  have hspent : (isSpent.run w).2 = w := rfl
  have hget : (get : Sim World).run w = (w, w) := rfl
  by_contra hdue
  have hdue' : alarm.deadline ≤ w.clock := Nat.le_of_not_lt hdue
  have hlook : (isDue alarm).run w = (true, w) := by
    rw [isDue, run_bind, hget]
    simp only [hdue', if_true]
    rfl
  simp only [rings, run_bind, hspent] at h
  split at h
  · rw [if_pos trivial, hlook] at h
    cases h
  · rw [run_bind, hlook] at h
    cases h

/-- Code that has not ended is given up if the alarm rings after its turn. -/
theorem poll_within_of_goes (n : Nat) (alarm : Alarm) (code : Future a) (w : World)
    (hgoes : ∀ o, ((poll n code).run w).1 ≠ .done o) :
    ((poll (n + 1) (.within alarm code)).run w).1 =
      if ((rings alarm (!decide (w.allowance = some 0))).run ((poll n code).run w).2).1 then
        .value none
      else .within alarm ((poll n code).run w).1 := by
  have hspent : isSpent.run w = (decide (w.allowance = some 0), w) := rfl
  rw [poll]
  simp only [run_bind, hspent]
  generalize (poll n code).run w = polled at hgoes ⊢
  obtain ⟨code', v⟩ := polled
  cases code' with
  | done ended => exact absurd rfl (hgoes ended)
  | _ =>
      dsimp only
      rw [run_bind]
      generalize (rings alarm (!decide (w.allowance = some 0))).run v = rang
      obtain ⟨isOver, v'⟩ := rang
      cases isOver <;> rfl

/-- What a turn makes of a guarded call: it ends if the code has ended or is overdue, and is
under way if the code has not ended and was not overdue when the task looked. -/
theorem poll_guarded (n : Nat) (alarm : Option Alarm) (code : Future a) (w : World) :
    (((poll (n + 1) (code.guarded alarm)).run w).1 = .done ((poll n code).run w).1.given ∧
      ((∃ o, ((poll n code).run w).1 = .done o) ∨
        ∃ set, alarm = some set ∧ set.deadline ≤ ((poll n code).run w).2.clock)) ∨
    (((poll (n + 1) (code.guarded alarm)).run w).1 = ((poll n code).run w).1.guarded alarm ∧
      (∀ o, ((poll n code).run w).1 ≠ .done o) ∧
      (w.allowance ≠ some 0 → ∀ set, alarm = some set →
        ((poll n code).run w).2.clock < set.deadline)) := by
  rcases guards_poll n alarm code w with ⟨hdone, hended⟩ | ⟨hgoes, hguarded⟩
  · by_cases hcode : ∃ o, ((poll n code).run w).1 = .done o
    · exact .inl ⟨hdone, .inl hcode⟩
    · have hgoes (o : Outcome a.Value) (ho : ((poll n code).run w).1 = .done o) : False :=
        hcode ⟨o, ho⟩
      cases alarm with
      | none => exact absurd (hended rfl) hcode
      | some alarm =>
          have hturn := poll_within_of_goes n alarm code w hgoes
          refine .inl ⟨hdone, .inr ⟨alarm, rfl, ?_⟩⟩
          by_contra hearly
          have hrings : ((rings alarm (!decide (w.allowance = some 0))).run
              ((poll n code).run w).2).1 = false := by
            by_contra hrang
            exact hearly ((passes_rings alarm _ _).2 (by simpa using hrang))
          rw [hrings] at hturn
          cases hturn.symm.trans hdone
  · refine .inr ⟨hguarded, hgoes, fun hallowed set hset => ?_⟩
    obtain rfl := hset
    have hturn := poll_within_of_goes n set code w hgoes
    refine lt_of_rings_eq_false ?_
    by_contra hrang
    simp only [hallowed, decide_false, Bool.not_false] at hturn
    rw [Bool.not_eq_false] at hrang
    rw [hrang, if_pos rfl] at hturn
    cases hturn.symm.trans hguarded

theorem poll_bind_of_goes {b : Shape} (n : Nat) {inner : Future a} (frame : Frame a b) (w : World)
    (hgoes : ∀ o, ((poll n inner).run w).1 ≠ .done o) :
    ((poll (n + 1) (.bind inner frame)).run w).1 = .bind ((poll n inner).run w).1 frame := by
  rw [poll_bind]
  generalize (poll n inner).run w = polled at hgoes ⊢
  obtain ⟨inner', v⟩ := polled
  cases inner' with
  | done ended => exact absurd rfl (hgoes ended)
  | _ => rfl

theorem poll_bind_of_done {b : Shape} (n : Nat) {inner : Future a} (frame : Frame a b) (w : World)
    {ended : Outcome a.Value} (hended : ((poll n inner).run w).1 = .done ended) :
    ∃ v, (poll (n + 1) (.bind inner frame)).run w =
      (poll n ((resume frame ended).run v).1).run ((resume frame ended).run v).2 := by
  rw [poll_bind]
  generalize (poll n inner).run w = polled at hended ⊢
  obtain ⟨inner', v⟩ := polled
  obtain rfl : inner' = .done ended := hended
  exact ⟨v, rfl⟩

end Sim

/-! ### The course of a call -/

theorem onward_midst {f f' : Future a} {k n : Nat} {w : World}
    (hturn : f.onward turns (k + 1) = ((Sim.poll n f').run w).1) (j : Nat) :
    f'.onward (midst turns k n w) (j + 1) = f.onward turns (k + 1 + j) := by
  induction j with
  | zero => exact hturn.symm
  | succ j ih =>
      have hnext : f'.onward (midst turns k n w) (j + 1 + 1) =
          ((Sim.poll (turns (k + 1 + j)).1 (f'.onward (midst turns k n w) (j + 1))).run
            (turns (k + 1 + j)).2).1 := rfl
      rw [hnext, ih]
      rfl

section

variable (event : Event) (s : Subscription Action) (alarm : Option Alarm)
  (frame : Frame (.maybe .listener) .report) (turns : Nat → Nat × World)

/-- What a listener has come to in the first turns, and how it stands with the alarm. -/
structure Spent (k : Nat) (own : List (World × World)) (code : Future .listener) : Prop where
  advances : Advances (listenerCode s event) own code
  worlds : own.map Prod.fst = (List.range k).map fun j => (turns j).2

/-- After the first turns, a call is under way. -/
structure Ongoing (f : Future .report) (k : Nat) (own : List (World × World))
    (code : Future .listener) : Prop extends Spent event s turns k own code where
  state : f.onward turns k = .bind (code.guarded alarm) frame

/-- A call has ended in this turn, by itself or because the alarm rang, and what comes after it
has the rest of the turn. -/
structure Ceases (f : Future .report) (k : Nat) (own : List (World × World))
    (code : Future .listener) : Prop extends Spent event s turns (k + 1) own code where
  ends : (∃ o, code = .done o) ∨
    ∃ set last, alarm = some set ∧ own.getLast? = some last ∧ set.deadline ≤ last.2.clock
  goes : ∃ n v, f.onward turns (k + 1) =
    ((Sim.poll n ((Sim.resume frame code.given).run v).1).run
      ((Sim.resume frame code.given).run v).2).1

variable {event s alarm frame turns}

theorem Spent.snoc {k : Nat} {own : List (World × World)} {code code' : Future .listener}
    {v : World} (h : Spent event s turns k own code) (n : Nat)
    (hturn : (Sim.poll n code).run (turns k).2 = (code', v)) :
    Spent event s turns (k + 1) (own ++ [((turns k).2, v)]) code' := by
  refine ⟨h.advances.snoc hturn, ?_⟩
  rw [List.map_append, h.worlds, List.range_succ, List.map_append]
  rfl

/-- One turn of a call: it ends, or it goes on and is not overdue. -/
theorem Ongoing.turn {f : Future .report} {k : Nat} {own : List (World × World)}
    {code : Future .listener} (h : Ongoing event s alarm frame turns f k own code) :
    (∃ own' code', Ceases event s alarm frame turns f k own' code') ∨
      ∃ v code', Ongoing event s alarm frame turns f (k + 1) (own ++ [((turns k).2, v)]) code' ∧
        (2 ≤ (turns k).1 → (∀ o, code' ≠ .done o) ∧ ((turns k).2.allowance ≠ some 0 →
          ∀ set, alarm = some set → v.clock < set.deadline)) := by
  have hturn : f.onward turns (k + 1) =
      ((Sim.poll (turns k).1 (.bind (code.guarded alarm) frame)).run (turns k).2).1 := by
    rw [Future.onward, h.state]
  -- In a turn that is too short the code does not move.
  have hshort (hstays : f.onward turns (k + 1) = .bind (code.guarded alarm) frame)
      (hfew : (turns k).1 < 2) : ∃ v code',
        Ongoing event s alarm frame turns f (k + 1) (own ++ [((turns k).2, v)]) code' ∧
        (2 ≤ (turns k).1 → (∀ o, code' ≠ .done o) ∧ ((turns k).2.allowance ≠ some 0 →
          ∀ set, alarm = some set → v.clock < set.deadline)) :=
    ⟨(turns k).2, code, ⟨h.toSpent.snoc 0 rfl, hstays⟩, fun hlong => by omega⟩
  match hlength : (turns k).1 with
  | 0 =>
      rw [hlength] at hturn hshort
      exact .inr (hshort hturn (by omega))
  | 1 =>
      have hgoes (o : Outcome (Option (Except ListenerError Unit))) :
          ((Sim.poll 0 (code.guarded alarm)).run (turns k).2).1 ≠ .done o :=
        code.guarded_ne_done alarm o
      rw [hlength, Sim.poll_bind_of_goes 0 frame _ hgoes] at hturn
      rw [hlength] at hshort
      exact .inr (hshort hturn (by omega))
  | n + 2 =>
      rw [hlength] at hturn
      have hspent := h.toSpent.snoc n rfl
      rcases Sim.poll_guarded n alarm code (turns k).2 with
        ⟨hdone, hends⟩ | ⟨hguarded, hgoes, hearly⟩
      · obtain ⟨v, hv⟩ := Sim.poll_bind_of_done (n + 1) frame _ hdone
        rw [hv] at hturn
        refine .inl ⟨_, _, hspent, ?_, n + 1, v, hturn⟩
        exact hends.imp_right fun ⟨set, hset, hdue⟩ => ⟨set, _, hset, List.getLast?_concat, hdue⟩
      · have hgoes' (o : Outcome (Option (Except ListenerError Unit))) :
            ((Sim.poll (n + 1) (code.guarded alarm)).run (turns k).2).1 ≠ .done o := by
          rw [hguarded]
          exact ((Sim.poll n code).run (turns k).2).1.guarded_ne_done alarm o
        rw [Sim.poll_bind_of_goes (n + 1) frame _ hgoes', hguarded] at hturn
        exact .inr ⟨_, _, ⟨hspent, hturn⟩, fun _ => ⟨hgoes, hearly⟩⟩

/-- A call ends in some turn, or it is under way in all of them. -/
theorem ceases_or_ongoing (turns : Nat → Nat × World) {f : Future .report}
    (hf : f = .bind ((listenerCode s event).guarded alarm) frame) :
    (∃ k own code, Ceases event s alarm frame turns f k own code) ∨
      ∀ k, ∃ own v code,
        Ongoing event s alarm frame turns f (k + 1) (own ++ [((turns k).2, v)]) code ∧
        (2 ≤ (turns k).1 → (∀ o, code ≠ .done o) ∧ ((turns k).2.allowance ≠ some 0 →
          ∀ set, alarm = some set → v.clock < set.deadline)) := by
  by_cases hceases : ∃ k own code, Ceases event s alarm frame turns f k own code
  · exact .inl hceases
  · right
    have hgoes {k : Nat} {own : List (World × World)} {code : Future .listener}
        (h : Ongoing event s alarm frame turns f k own code) :=
      h.turn.resolve_left fun ⟨own', code', h'⟩ => hceases ⟨k, own', code', h'⟩
    intro k
    induction k with
    | zero =>
        have hstart : Ongoing event s alarm frame turns f 0 [] (listenerCode s event) :=
          ⟨⟨.refl _, rfl⟩, hf⟩
        obtain ⟨v, code, h⟩ := hgoes hstart
        exact ⟨_, v, code, h⟩
    | succ k ih =>
        obtain ⟨own, v, code, h, -⟩ := ih
        obtain ⟨v', code', h'⟩ := hgoes h
        exact ⟨_, v', code', h'⟩

end

/-! ### The course of a dispatch -/

/-- A dispatch returns in one of these turns, with what the calls of all its listeners add to
its report. -/
def Returns (broker : Nat) (d : Dispatch Action) (f : Future .report)
    (turns : Nat → Nat × World) : Prop :=
  ∃ k, ∃ calls : List (Invocation × Verdict), calls.map (·.1.subscription) = d.remaining ∧
    (∀ c ∈ calls, c.1.Ran d.event ∧ c.1.Ends broker c.2) ∧
    f.onward turns k =
      .value (.ok (d.report.afterAll (calls.map fun c => (c.1.subscription, c.2))))

/-- How a call ended is what its dispatch is told. -/
theorem Ceases.ends_verdict {s : Subscription Action} {span? : Option Duration} {t : Ticket}
    {frame : Frame (.maybe .listener) .report} {f : Future .report} {k : Nat}
    {own : List (World × World)} {code : Future .listener} {w : World}
    (h : Ceases event s (span?.map fun span =>
      { ticket := t, deadline := w.clock + span.timerMillis }) frame turns f k own code)
    (hw : (turns 0).2 = w) (hspan : w.listenerDeadline broker = span?) :
    Invocation.Ends broker ⟨s, own, code⟩ (verdictOf span? code.given) := by
  by_cases hdone : ∃ o, code = .done o
  · obtain ⟨o, rfl⟩ := hdone
    cases o with
    | returned result => exact .returned result rfl
    | panicked payload => exact .panicked payload rfl
  · have hgoes (o : Outcome (Except ListenerError Unit)) (ho : code = .done o) : False :=
      hdone ⟨o, ho⟩
    have hgiven : code.given = .returned none := by
      cases code with
      | done o => exact absurd rfl (hgoes o)
      | _ => rfl
    obtain ⟨set, last, hset, hlast, hdue⟩ := h.ends.resolve_left hdone
    obtain ⟨span, rfl, rfl⟩ := Option.map_eq_some_iff.mp hset
    have hworld : own.head?.map Prod.fst = some w := by
      rw [← List.head?_map, h.worlds, ← hw, List.range_succ_eq_map]
      rfl
    obtain ⟨first, hfirst, rfl⟩ := Option.map_eq_some_iff.mp hworld
    rw [hgiven]
    exact .overdue span first last hgoes hfirst hlast hspan hdue

theorem Serving.eq_call {d : Dispatch Action} {f : Future .report} {w : World}
    {s : Subscription Action} {rest : List (Subscription Action)} (h : Serving broker w d f)
    (hremaining : d.remaining = s :: rest) : ∃ t : Ticket,
      f = .bind ((listenerCode s d.event).guarded ((w.listenerDeadline broker).map fun span =>
          { ticket := t, deadline := w.clock + span.timerMillis }))
        (.delivered broker { d with remaining := rest } s (w.listenerDeadline broker)) := by
  cases h with
  | reports hremaining' => cases hremaining.symm.trans hremaining'
  | calls s' rest' t hremaining' =>
      cases hremaining.symm.trans hremaining'
      exact ⟨t, rfl⟩

/-- A dispatch returns, or it is held up by one of its listeners. -/
theorem Serving.returns_or_heldUp {d : Dispatch Action} {f : Future .report}
    (hf : Serving broker (turns 0).2 d f) (hlong : ∀ k, 2 ≤ (turns (k + 1)).1) :
    Returns broker d f turns ∨ HeldUp broker d.event d.remaining turns := by
  generalize hlisteners : d.remaining = listeners
  induction listeners generalizing d f turns with
  | nil =>
      cases hf with
      | reports _ => exact .inl ⟨0, [], hlisteners.symm, by simp, rfl⟩
      | calls s rest t hremaining => cases hlisteners.symm.trans hremaining
  | cons s listeners ih =>
      obtain ⟨t, hcall⟩ := hf.eq_call hlisteners
      rcases ceases_or_ongoing turns hcall with ⟨k, own, code, hceases⟩ | hongoing
      · -- The next listener starts in the same turn.
        obtain ⟨n, v, hgoes⟩ := hceases.goes
        have hends : Invocation.Ends broker ⟨s, own, code⟩ _ := hceases.ends_verdict rfl rfl
        have hnext : Serving broker (midst turns k n _ 0).2 _ _ :=
          Sim.serving_delivered broker { d with remaining := listeners } s
            ((turns 0).2.listenerDeadline broker) code.given v
        have hmidst := onward_midst hgoes
        have hlater (u : World) (j : Nat) : 2 ≤ (midst turns k n u (j + 1)).1 := by
          rw [midst, Nat.add_right_comm]
          exact hlong (k + j)
        rcases ih hnext (hlater _) rfl with
          ⟨k', calls, hcalls, hall, hreturns⟩ | ⟨K, s', hs', hheld⟩
        · obtain ⟨k'', hk''⟩ : ∃ k'', f.onward turns k'' = .value (.ok
              ((d.report.after s.service.name (verdictOf ((turns 0).2.listenerDeadline broker)
                code.given)).afterAll (calls.map fun c => (c.1.subscription, c.2)))) := by
            cases k' with
            | zero =>
                refine ⟨k + 1, hgoes.trans ?_⟩
                rw [Future.onward] at hreturns
                rw [hreturns, Sim.poll_value]
                rfl
            | succ j => exact ⟨k + 1 + j, (hmidst j).symm.trans hreturns⟩
          refine .inl ⟨k'', (⟨s, own, code⟩, _) :: calls, ?_, ?_, hk''⟩
          · rw [List.map_cons, hcalls, hlisteners]
            rfl
          · exact List.forall_mem_cons.mpr ⟨⟨hceases.advances, hends⟩, hall⟩
        · refine .inr ⟨k + 1 + K, s', List.mem_cons_of_mem s hs', fun k'' hk'' => ?_⟩
          obtain ⟨j, rfl⟩ := Nat.exists_eq_add_of_le (Nat.le_of_add_right_le hk'')
          exact hheld (j + 1) (by omega)
      · refine .inr ⟨1, s, List.mem_cons_self, fun k hk => ?_⟩
        obtain ⟨own, v, code, hgoes, hearly⟩ := hongoing k
        obtain ⟨hcode, hclock⟩ := hearly (by
          obtain ⟨j, rfl⟩ := Nat.exists_eq_add_of_le' hk
          exact hlong j)
        have hworld : (own ++ [((turns k).2, v)]).head?.map Prod.fst = some (turns 0).2 := by
          rw [← List.head?_map, hgoes.worlds, List.range_succ_eq_map]
          rfl
        obtain ⟨first, hfirst, hstart⟩ := Option.map_eq_some_iff.mp hworld
        refine ⟨_, code, first, _, hgoes.advances, hfirst, List.getLast?_concat, rfl, hcode, ?_⟩
        rintro span hspan hallowed
        rw [hstart] at hspan ⊢
        rw [hspan] at hclock
        exact hclock hallowed _ rfl

/-! ### Every list and every outcome -/

/-- A failing listener is a matter between it and the report. Whatever the listeners of an event
are, and whatever becomes of each, all of them are called with the event, and the report counts
those that took it and lists the others with the names of their services and their own errors; if
one of them had ended in another way, only its own entry would be another. A dispatch whose
snapshot has come returns such a report in whatever turns its task has, unless one listener never
ends and is not overdue either, by the time that the broker gives it from its own first turn on. -/
theorem dispatch_accounted_and_isolated :
    (∀ (L : Type) (b : Broker L) (event : Event) (found : List (Subscription L))
      (verdicts : List Verdict), verdicts.length = found.length →
        Dispatch.Accounted b event found verdicts) ∧
    (∀ (L : Type) (b : Broker L) (event : Event) (front back : List (Subscription L))
      (s : Subscription L) (before after : List Verdict) (verdict other : Verdict),
        before.length = front.length → after.length = back.length →
          Dispatch.Isolated b event front back s before after verdict other) ∧
    ∀ (broker : Nat) (event : Event) (found : List (Subscription Action)) (w : World)
      (call : EventHub.Call Action) (b : Broker Action),
      (w.brokers[broker]?.getD Sim.noBroker).resume call =
        (b, .finished (.ok (.subscriptions found))) →
      ∀ turns : Nat → Nat × World, (∀ k, 2 ≤ (turns k).1) →
        (turns 0).2 = ((Sim.dispatching broker (Dispatch.resume · event call)).run w).2 →
        (∃ k r, Reported broker event found r ∧
          ((Sim.dispatching broker (Dispatch.resume · event call)).run w).1.onward turns k =
            .value (.ok r)) ∨
          HeldUp broker event found turns := by
  refine ⟨fun L => Dispatch.accounted, fun L => Dispatch.isolated, ?_⟩
  intro broker event found w call b hanswer turns hlong hstart
  have hserving := Sim.serving_found event w hanswer
  rw [← hstart] at hserving
  rcases hserving.returns_or_heldUp fun k => hlong (k + 1) with
    ⟨k, calls, hcalls, hall, hreturns⟩ | hheld
  · refine .inl ⟨k, _, ⟨calls, hcalls, hall, ?_⟩, hreturns⟩
    have haccounts := Report.accounts_afterAll event (calls.map fun c => (c.1.subscription, c.2))
    rw [Report.entriesOf, List.map_map] at haccounts
    exact haccounts
  · exact .inr hheld

/-! ### Three listeners -/

/-- A listener of a service that ends like this. -/
def endingListener (service : String) (ending : Script.Ending) : Subscription Action :=
  ⟨⟨⟨1⟩, service⟩, .applicationStartup, .applicationStartup,
    .scripted 0 ⟨.applicationStartup, "tag", [], ending, none⟩⟩

/-- One that breaks off, one that takes the event and one that refuses it. -/
def threeListeners : List (Subscription Action) :=
  [endingListener "indexer" (.panic (.literal "boom") true), endingListener "views" .done,
    endingListener "mapper" (.fail "no room")]

/-- A world in which the registry has answered with these. -/
def threeAnswered : World :=
  { (Scenario.start {}) with
    calls := #[0]
    brokers := #[{ (Broker.new {} ⟨0, 0⟩) with
      replies := [(⟨1, 0⟩, .given (.subscriptions threeListeners))] }] }

/-- The dispatch that goes on with the answer, and the world that it leaves. -/
def threeDispatched : Future .report × World :=
  (Sim.dispatching 0 (Dispatch.resume · ⟨7, .startup⟩ (.awaiting ⟨1, 0⟩))).run threeAnswered

/-- The report of a dispatch that has returned. -/
def returned? : Future .report → Option Report
  | .done (.returned (.ok r)) => some r
  | _ => none

theorem dispatch_accounted_and_isolated_three :
    (Dispatch.Accounted (Broker.new {} ⟨0, 0⟩) ⟨7, .startup⟩ threeListeners
      [.panicked (.literal "boom"), .returned (.ok ()), .overdue (Duration.ofParts 1 0)]) ∧
    (Dispatch.Isolated (Broker.new {} ⟨0, 0⟩) ⟨7, .startup⟩ []
      [endingListener "views" .done] (endingListener "mapper" .done) [] [.returned (.ok ())]
      (.panicked .other) (.returned (.ok ()))) ∧
    ((∃ k r, Reported 0 ⟨7, .startup⟩ threeListeners r ∧
        threeDispatched.1.onward (fun _ => (20, threeDispatched.2)) k = .value (.ok r)) ∨
      HeldUp 0 ⟨7, .startup⟩ threeListeners fun _ => (20, threeDispatched.2)) ∧
    returned? (threeDispatched.1.onward (fun _ => (20, threeDispatched.2)) 1) = some
      { kind := .applicationStartup, seq := 7, delivered := 1,
        failures := [⟨"indexer", .panicked "boom"⟩, ⟨"mapper", .failed "no room"⟩] } := by
  obtain ⟨haccounted, hisolated, hreturns⟩ := dispatch_accounted_and_isolated
  refine ⟨haccounted _ _ _ _ _ rfl, hisolated _ _ _ _ _ _ _ _ _ _ rfl rfl, ?_, by decide +kernel⟩
  exact hreturns 0 ⟨7, .startup⟩ threeListeners threeAnswered (.awaiting ⟨1, 0⟩) _ rfl
    (fun _ => (20, threeDispatched.2)) (fun _ => by omega) rfl

end Simulation

end EventHub
