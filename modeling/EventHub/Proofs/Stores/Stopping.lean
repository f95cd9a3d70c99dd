import EventHub.Proofs.Panics.Dispatches
import EventHub.Proofs.Pool.Emptied
import EventHub.Proofs.Startup.Refusal
import EventHub.Proofs.Stores.Performs
import EventHub.Proofs.Traffic.Closed

/-!
Stopping the application. A call of stop goes through three phases, whatever the one before has
come to: it announces the shutdown, closes the pool and drains it, and closes the broker. What
it says in the end is what the phases have said, a refused announcement before a grace that
ran out. A stop that begins at a closed broker announces nothing.
-/

namespace EventHub

open EventHub.Script EventHub.Simulation

namespace Simulation

/-- Nothing takes the request for a shutdown back. -/
theorem Acts.requested {may : Pool.Move → Prop} {s s' : Stores} (h : Acts may s s')
    (hpulled : s.trigger.isPulled = true) : s'.trigger.isPulled = true := by
  refine h.keeps (P := fun s => s.trigger.isPulled = true) ?_ hpulled
  intro s s' hact hbefore
  cases hact with
  | pull =>
      simp only [ShutdownTrigger.pull]
      split <;> simp [hbefore]
  | _ => exact hbefore

/-- The announcement of a shutdown between the worlds `asked` and `u`: the broker has refused the
event, or each listener that was found has finished or was given up. -/
structure Announces (reason : ShutdownReason) (turns : List (World × World)) (asked u : World)
    (announced : Except BrokerError Unit) : Prop where
  spans : Spans turns asked u
  verdicts : ∃ e report, e.notice = .shutdown reason ∧
    Runs (.begin (.fire 0 e)) turns (.returned report) ∧ announced = report.map (fun _ => ()) ∧
      (report = .error .closed ∨ ∃ calls : List (Subscription Action × Verdict),
        (∀ c ∈ calls, Delivered e c.1 c.2) ∧ report = .ok ((Report.ofEvent e).afterAll calls))

/-- A shutdown of the pool between the worlds `u` and `u'`. It closes the pool first; it
succeeds when there was a moment without any task in the closed pool, and then no body runs
any more; or it gives up with a task that has not ended when the grace was over. -/
structure Drains (config : Config) (grace : Duration) (turns : List (World × World)) (u u' : World)
    (drained : Except RuntimeError Unit) : Prop where
  performs : Performs ByActs 7 u (.begin (.shutdownPool grace)) turns (.returned drained)
  spans : Spans turns u u'
  closed : u'.pool.isClosed = true
  fails : drained ≠ .ok () → Overdue grace (turns.map Prod.fst) ∧
    drained = .error (.graceExceeded grace u'.pool.liveNames)
  succeeds : drained = .ok () → (∀ later, (u'.pool.run later).running = []) ∧
    ∃ moves, u'.pool = (Pool.new config).run moves ∧ Pool.WasEmptied config moves

/-- What a call of stop has done in these turns: it has asked for the shutdown, gone through one
phase after the other, and closed the broker in its last act. -/
structure Stops (config : Config) (reason : ShutdownReason) (turns : List (World × World))
    (o : Outcome (Except RuntimeError Unit)) : Prop where
  phases : ∃ first asked announcing announced u draining drained u' last, Spans turns first last ∧
    ((Sim.begin (.stop reason)).run first).2 = asked ∧
    Announces reason announcing asked u announced ∧
    Drains config u.config.grace draining u u' drained ∧
    ((Sim.onBroker 0 fun b => (b.close, ())).run u').2 = last ∧
    o = .returned (stopResult announced drained)
  requested : ∀ last, turns.getLast?.map Prod.snd = some last → last.trigger.isPulled = true
  poolClosed : ∀ last, turns.getLast?.map Prod.snd = some last → last.pool.isClosed = true
  brokerClosed : ∀ last b, turns.getLast?.map Prod.snd = some last →
    last.brokers[0]? = some b → b.isClosed = true

namespace Sim

theorem pulled_requestShutdown (w : World) :
    (requestShutdown.run w).2.trigger.isPulled = true := by
  have hpulled : w.trigger.pull.1.isPulled = true := by
    rw [ShutdownTrigger.pull]
    split
    · assumption
    · rfl
  have hwoken : AllActs { w with trigger := w.trigger.pull.1 }.stores
      (requestShutdown.run w).2.stores :=
    (does_wakeAll (i := none) w.trigger.pull.2 _).acts.widen fun _ _ => trivial
  exact hwoken.requested hpulled

/-- A stop asks for the shutdown, and then it fires the event. -/
theorem begin_stop (reason : ShutdownReason) (w : World) :
    ∃ e w', e.notice = .shutdown reason ∧ w'.trigger.isPulled = true ∧
      AllActs w.stores w'.stores ∧
      (begin (.stop reason)).run w = (.bind (.begin (.fire 0 e)) .stopAnnounced, w') := by
  let noted := ((write (Startup.note .info "application shutting down"
    [("reason", reason.name)])).run w).2
  refine ⟨⟨(requestShutdown.run noted).2.nextSeq, .shutdown reason⟩,
    ((event (.shutdown reason)).run (requestShutdown.run noted).2).2, rfl,
    pulled_requestShutdown noted, ?_, ?_⟩
  · exact (jobless_startStop (i := none) reason w).1.acts.widen fun _ _ => trivial
  · rw [begin]
    rfl

theorem resume_stopAnnounced (report : Except BrokerError Report) (w : World) :
    (resume .stopAnnounced (.returned report)).run w =
      (.bind (.begin (.shutdownPool w.config.grace)) (.stopDrained (report.map fun _ => ())),
        w) := by
  rw [resume]
  rfl

theorem resume_stopDrained (announced : Except BrokerError Unit)
    (drained : Except RuntimeError Unit) (w : World) :
    (resume (.stopDrained announced) (.returned drained)).run w =
      (.value (stopResult announced drained), ((onBroker 0 fun b => (b.close, ())).run w).2) := by
  rw [resume]
  rfl

theorem brokers_wakeTask (id : Nat) (w : World) :
    ((wakeTask id).run w).2.brokers = w.brokers := by
  rw [wakeTask, run_modify]
  split
  · rfl
  · split
    · rfl
    · rfl
    · split
      · rfl
      · split
        · rfl
        · rfl

theorem brokers_wakeAll (ts : List Ticket) (w : World) :
    ((wakeAll ts).run w).2.brokers = w.brokers := by
  induction ts generalizing w with
  | nil => rfl
  | cons t rest ih => exact (ih _).trans (brokers_wakeTask t.task w)

/-- To ask for the shutdown is no concern of the brokers. -/
theorem brokers_startStop (reason : ShutdownReason) (w : World) :
    ((startStop reason).run w).2.brokers = w.brokers :=
  brokers_wakeAll _ _

/-- What closes the broker of the application leaves the stores alone. -/
theorem closing_run (w : World) :
    AllActs w.stores ((onBroker 0 fun b => (b.close, ())).run w).2.stores ∧
      ((onBroker 0 fun b => (b.close, ())).run w).2.IsShut := by
  refine ⟨(does_onBroker (i := none) 0 _ w).acts.widen fun _ _ => trivial, ?_⟩
  intro b hb
  obtain ⟨before, -, rfl⟩ := found_onBroker hb
  exact before.isClosed_close

end Sim

variable {s : Scenario} {v u : World} {reason : ShutdownReason} {grace : Duration}
  {turns : List (World × World)}

/-- The dispatch of an event to a closed broker is over in its first turn. -/
theorem Performs.refused {e : Event} {w w' : World} {least : Nat} {rest : List (World × World)}
    {o : Outcome (Except BrokerError Report)}
    (h : Performs ByActs (least + 1) v (.begin (.fire 0 e)) ((w, w') :: rest) o)
    (hshut : w.IsShut) : o = .returned (.error .closed) ∧ Kept w w' ∧ rest = [] := by
  obtain ⟨_, _, _, hturns, -, hbegun⟩ := h.of_begin byActs_refl
  cases hturns
  obtain ⟨y, hrefused, -⟩ := Sim.begin_fire_shut hshut e
  have hkept : Kept w ((Sim.begin (.fire 0 e)).run w).2 := (Sim.begin_fire 0 e w).1
  rw [hrefused] at hbegun hkept
  obtain ⟨rfl, rfl, rfl⟩ := hbegun.of_ended
  exact ⟨rfl, hkept, rfl⟩

theorem announces_of_runs {asked : World} {e : Event} {report : Except BrokerError Report}
    (h : Runs (.begin (.fire 0 e)) turns (.returned report)) (he : e.notice = .shutdown reason)
    (hspans : Spans turns asked u) :
    Announces reason turns asked u (report.map fun _ => ()) := by
  refine ⟨hspans, e, report, he, h, rfl, ?_⟩
  rcases runs_fire h with hrefused | ⟨calls, hcalls, hall⟩
  · cases hrefused
    exact Or.inl rfl
  · cases hall
    exact Or.inr ⟨calls, hcalls, rfl⟩

/-- The dispatch that a stop begins with, and what is left of the stop after it. -/
theorem announcement_of_performs {w w' : World} {rest : List (World × World)}
    {o : Outcome (Except RuntimeError Unit)}
    (h : Performs ByActs 10 v (.begin (.stop reason)) ((w, w') :: rest) o) :
    ∃ e asked own report u w₁ later, e.notice = .shutdown reason ∧
      ((Sim.begin (.stop reason)).run w).2 = asked ∧ asked.trigger.isPulled = true ∧
      Performs ByActs 8 asked (.begin (.fire 0 e)) own (.returned report) ∧ Spans own asked u ∧
      AllActs v.stores asked.stores ∧ AllActs asked.stores u.stores ∧
      Performs ByActs 8 u
        (.bind (.begin (.shutdownPool u.config.grace)) (.stopDrained (report.map fun _ => ())))
        ((u, w₁) :: later) o ∧
      (w₁ :: later.map Prod.snd) <:+ w' :: rest.map Prod.snd := by
  obtain ⟨_, _, _, hturns, hsince, hbegun⟩ := h.of_begin byActs_refl
  cases hturns
  obtain ⟨e, asked, he, hpulled, hasked, hbegin⟩ := Sim.begin_stop reason w
  rw [hbegin] at hbegun
  obtain ⟨own, ended, u, w₁, later, hfire, hspans, -, hdraining, hlater⟩ :=
    hbegun.of_bind byActs_refl
  obtain ⟨report, rfl⟩ : ∃ report, ended = .returned report := by
    rcases runs_fire hfire.runs with rfl | ⟨calls, -, rfl⟩ <;> exact ⟨_, rfl⟩
  rw [Sim.resume_stopAnnounced] at hdraining
  exact ⟨e, asked, own, report, u, w₁, later, he, congrArg Prod.snd hbegin, hpulled, hfire,
    hspans, hsince.trans hasked, hfire.lasting rfl hspans.last, hdraining, hlater⟩

theorem drains_of_performs {config : Config} {moves : List Pool.Move}
    {o : Outcome (Except RuntimeError Unit)}
    (h : Performs ByActs 7 u (.begin (.shutdownPool grace)) turns o)
    (hpool : u.pool = (Pool.new config).run moves) {u' : World} (hspans : Spans turns u u') :
    ∃ drained, o = .returned drained ∧ Drains config grace turns u u' drained := by
  have hclosable : u.pool.Closable := by
    rw [hpool]
    exact (Pool.Closable.new config).run moves
  obtain ⟨last, drained, hlast, rfl, ⟨more, hmore⟩, hclosed, hsettled⟩ :=
    shutdown_concludes h.concludes hclosable
  have hrun : last.2.pool = (Pool.new config).run (moves ++ more) := by
    rw [Pool.run_append, ← hpool]
    exact hmore
  have hlast' := hspans.last
  rw [hlast] at hlast'
  cases hlast'
  refine ⟨drained, rfl, h, hspans, hclosed, ?fails, ?succeeds⟩
  case fails =>
    intro hfailed
    cases hsettled with
    | ok => exact absurd rfl hfailed
    | exceeded hover => exact ⟨hover, rfl⟩
  case succeeds =>
    rintro rfl
    cases hsettled with
    | @ok w q t hseen hturn hdrained hsince hidle =>
        obtain ⟨turn, hturn', rfl⟩ := List.mem_map.mp hseen
        obtain ⟨before, hbefore⟩ : ∃ before, turn.1.pool = u.pool.run before :=
          (h.acts rfl turn hturn').1.pool
        obtain ⟨own, rfl⟩ := hturn
        obtain ⟨rest, hrest⟩ := hsince
        have hhistory : (turn.1.pool.run own) =
            (Pool.new config).run ((moves ++ before) ++ own) := by
          rw [Pool.run_append, Pool.run_append, ← hpool, ← hbefore]
        refine ⟨forever_idle hrun hclosed hidle, (moves ++ before) ++ own ++ rest, ?_, ?_⟩
        · rw [hrest, hhistory, ← Pool.run_append]
        · rw [hhistory] at hdrained
          exact (Pool.wasEmptied_of_isDrained hdrained).mono rest

/-- Once the shutdown was announced, the pool is drained, and whatever that has come to, the
broker is closed. -/
theorem closes_of_performs {config : Config} {moves : List Pool.Move} {w' : World}
    {rest : List (World × World)} {announced : Except BrokerError Unit}
    {o : Outcome (Except RuntimeError Unit)}
    (h : Performs ByActs 8 u (.bind (.begin (.shutdownPool grace)) (.stopDrained announced))
      ((u, w') :: rest) o) (hpool : u.pool = (Pool.new config).run moves) :
    ∃ draining drained u', Drains config grace draining u u' drained ∧
      AllActs u.stores u'.stores ∧ o = .returned (stopResult announced drained) ∧
      [((Sim.onBroker 0 fun b => (b.close, ())).run u').2] <:+ w' :: rest.map Prod.snd := by
  obtain ⟨draining, ended, u', w₂, rest₂, hdrain, hspans, -, hclosing, hlast⟩ :=
    h.of_bind byActs_refl
  obtain ⟨drained, rfl, hdrains⟩ := drains_of_performs hdrain hpool hspans
  rw [Sim.resume_stopDrained] at hclosing
  obtain ⟨rfl, x, -, hx⟩ := hclosing.of_done
  obtain ⟨⟨rfl, rfl⟩, rfl⟩ : (_ = x ∧ w₂ = x) ∧ rest₂ = [] := by simpa using hx
  exact ⟨draining, drained, u', hdrains, hdrain.lasting rfl hspans.last, rfl, hlast⟩

/-- A call of stop that returns has gone through all its phases. -/
theorem stops_of_performs {config : Config} {moves : List Pool.Move}
    (hpool : v.pool = (Pool.new config).run moves) {o : Outcome (Except RuntimeError Unit)}
    (h : Performs ByActs 10 v (.begin (.stop reason)) turns o) : Stops config reason turns o := by
  obtain ⟨w, w', rest, rfl, -, -⟩ := h.of_begin byActs_refl
  obtain ⟨e, asked, announcing, report, u, w₁, rest₁, he, hbegin, hpulled, hfire, hspans, hsince,
    hannounced, hdraining, hlater⟩ := announcement_of_performs h
  obtain ⟨more, hmore⟩ : ∃ more, u.pool = v.pool.run more := (hsince.trans hannounced).pool
  rw [hpool, ← Pool.run_append] at hmore
  obtain ⟨draining, drained, u', hdrains, hdrained, rfl, hlast⟩ :=
    closes_of_performs hdraining hmore
  obtain ⟨hclosing, hclosed⟩ := Sim.closing_run u'
  have hends : ((w, w') :: rest).getLast?.map Prod.snd =
      some ((Sim.onBroker 0 fun b => (b.close, ())).run u').2 := by
    obtain ⟨before, hbefore⟩ := hlast.trans hlater
    have hmap : ((w, w') :: rest).map Prod.snd = w' :: rest.map Prod.snd := rfl
    rw [← List.getLast?_map, hmap, ← hbefore, List.getLast?_concat]
  constructor
  case phases =>
    exact ⟨w, asked, announcing, _, u, draining, drained, u', _, ⟨rfl, hends⟩, hbegin,
      announces_of_runs hfire.runs he hspans, hdrains, rfl, rfl⟩
  case requested =>
    intro last hlast'
    cases hends.symm.trans hlast'
    exact ((hannounced.trans hdrained).trans hclosing).requested hpulled
  case poolClosed =>
    intro last hlast'
    cases hends.symm.trans hlast'
    rw [(Sim.spares_onBroker 0 _ u').pool]
    exact hdrains.closed
  case brokerClosed =>
    intro last b hlast' hb
    cases hends.symm.trans hlast'
    exact hclosed b hb

/-- A stop that begins at a closed broker announces nothing. It drains the pool all the same, and
then tells that the event was refused. -/
theorem stop_refused {config : Config} {moves : List Pool.Move}
    (hpool : v.pool = (Pool.new config).run moves) {w w' : World} {rest : List (World × World)}
    {o : Outcome (Except RuntimeError Unit)}
    (h : Performs ByActs 10 v (.begin (.stop reason)) ((w, w') :: rest) o) (hshut : w.IsShut) :
    ∃ asked u, ((Sim.begin (.stop reason)).run w).2 = asked ∧
      Announces reason [(asked, u)] asked u (.error .closed) ∧ Kept asked u ∧
      o = .returned (.error (.broker .closed)) := by
  obtain ⟨e, asked, announcing, report, u, _, _, he, hbegin, -, hfire, hspans, hsince, hannounced,
    hdraining, -⟩ := announcement_of_performs h
  -- nothing that comes before the event reopens the broker
  have hstillShut : asked.IsShut := by
    intro b hb
    rw [← hbegin, Sim.begin, Sim.brokers_startStop] at hb
    exact hshut b hb
  cases announcing with
  | nil => cases hspans.first
  | cons turn more =>
      obtain ⟨first, u'⟩ := turn
      obtain rfl : first = asked := Option.some.inj hspans.first
      obtain ⟨hreport, hkept, rfl⟩ := hfire.refused hstillShut
      cases hreport
      obtain rfl : u' = u := Option.some.inj hspans.last
      obtain ⟨later, hlater⟩ : ∃ later, u'.pool = v.pool.run later :=
        (hsince.trans hannounced).pool
      rw [hpool, ← Pool.run_append] at hlater
      obtain ⟨-, drained, -, -, -, rfl, -⟩ := closes_of_performs hdraining hlater
      exact ⟨first, u', hbegin, announces_of_runs hfire.runs he hspans, hkept, rfl⟩

end Simulation

/-- Stopping always comes to its end. Whatever its broker is like, its listeners do and the jobs
come to, a call of stop that returns has asked for the shutdown, announced it, drained the pool
and closed the broker, in this order; it tells of a refused announcement first, then of a grace
that ran out. Between its turns the others do what leads from one world to another. -/
theorem stop_completes (s : Scenario) :
    (∀ v w, Scenario.Leads s.start v → Scenario.Leads v w → AllActs v.stores w.stores) ∧
    ∀ v reason turns (o : Outcome (Except RuntimeError Unit)), Scenario.Leads s.start v →
      Performs ByActs 10 v (.begin (.stop reason)) turns o → Stops s.config reason turns o :=
  ⟨fun _ _ hleads honward => (honward.turns (hleads.turns Scenario.setUp_start.inStep).inStep).acts,
    fun _ _ _ _ hleads h => by
      obtain ⟨moves, hpool⟩ := hleads.pool
      exact stops_of_performs hpool h⟩

namespace Simulation

theorem performs_of_drained? {between : Future .drain → World → World → Prop} {least : Nat}
    {v w : World} {f : Future .drain} {result : Except RuntimeError Unit} (hroom : least ≤ 20)
    (hsince : between f v w) (h : (turnOf f w).1.drained? = some result) :
    Performs between least v f [(w, (turnOf f w).2)] (.returned result) :=
  .last 20 hsince hroom (turn_of_drained? h)

theorem performs_of_turn {between : Future .drain → World → World → Prop} {least : Nat}
    {v w : World} {f : Future .drain} {turns : List (World × World)}
    {o : Outcome (Except RuntimeError Unit)} (hroom : least ≤ 20) (hsince : between f v w)
    (hgoes : (turnOf f w).1.isDone = false)
    (hrest : Performs between least (turnOf f w).2 (turnOf f w).1 turns o) :
    Performs between least v f ((w, (turnOf f w).2) :: turns) o := by
  refine .turn 20 hsince hroom rfl ?_ hrest
  intro o hdone
  have hdone : (turnOf f w).1 = .done o := hdone
  rw [hdone] at hgoes
  cases hgoes

end Simulation

/-- The numbers of the shutdowns that a step let somebody hear of. -/
def Script.Seen.shutdown? : Seen → Option Nat
  | .called _ { seq, notice := .shutdown _ } => some seq
  | _ => none

namespace Scenario

/-- A service that listens to the announcement of a shutdown. -/
def registersWitness : Step :=
  .broker 0 (.register (.scripted "index"
    [.broker 0 (.listen ⟨.applicationShutdown, "heard", [], .done, none⟩ none)] .done none) none)

/-- The world where that service is registered. -/
def witnessed : World := ((runStep none registersWitness).run (start {})).2

/-- A service listens to the shutdown, and a job waits for a gate that nobody opens. -/
def busy : World :=
  ((runStep none (.pool (.submit
    { name := "first", body := [.control (.waitGate "never")], ending := .done } none))).run
      witnessed).2

/-- The world when the registry has answered. -/
def answered (w : World) : World := { w with brokers := (Sim.runNext.run w).2.brokers }

theorem stores_answered (w : World) : (answered w).stores = w.stores := rfl

theorem stores_restUntil (clock : Nat) (w : World) : (restUntil clock w).stores = w.stores := rfl

/-- The first turns of a stop there: it asks who listens, then it calls them and closes the pool. -/
def stopAsks : Future .drain × World := turnOf (.begin (.stop .requested)) busy

def stopDrains : Future .drain × World := turnOf stopAsks.1 (answered stopAsks.2)

/-- Its last turn, much later. -/
def stopGivesUp : Future .drain × World := turnOf stopDrains.1 (restUntil 100000 stopDrains.2)

end Scenario

open Scenario in
/-- A stop among a listener and a job that does not end: the listener has heard of it, the grace
runs out, and the broker is closed all the same. -/
theorem stop_completes_busy :
    Performs ByActs 10 busy (.begin (.stop .requested))
      [(busy, stopAsks.2), (answered stopAsks.2, stopDrains.2),
        (restUntil 100000 stopDrains.2, stopGivesUp.2)]
      (.returned (.error (.graceExceeded (.ofMillis 30000) ["first"]))) ∧
    stopDrains.2.seen.filterMap (·.shutdown?) = [0] ∧
    stopGivesUp.2.brokers[0]?.map (·.isClosed) = some true ∧
    Stops {} .requested
      [(busy, stopAsks.2), (answered stopAsks.2, stopDrains.2),
        (restUntil 100000 stopDrains.2, stopGivesUp.2)]
      (.returned (.error (.graceExceeded (.ofMillis 30000) ["first"]))) := by
  have hasks : stopAsks.1.isDone = false := by decide +kernel
  have hdrains : stopDrains.1.isDone = false := by decide +kernel
  have hgivesUp : stopGivesUp.1.drained? =
      some (.error (.graceExceeded (.ofMillis 30000) ["first"])) := by decide +kernel
  have hperforms : Performs ByActs 10 busy (.begin (.stop .requested))
      [(busy, stopAsks.2), (answered stopAsks.2, stopDrains.2),
        (restUntil 100000 stopDrains.2, stopGivesUp.2)]
      (.returned (.error (.graceExceeded (.ofMillis 30000) ["first"]))) :=
    performs_of_turn (by decide) (byActs_refl _ _) hasks
      (performs_of_turn (by decide) (.of_eq (stores_answered _)) hdrains
        (performs_of_drained? (by decide) (.of_eq (stores_restUntil _ _)) hgivesUp))
  have hleads : Leads (start {}) busy :=
    (Leads.refl.runStep none registersWitness).runStep none _
  exact ⟨hperforms, by decide +kernel, by decide +kernel,
    (stop_completes {}).2 _ _ _ _ hleads hperforms⟩

end EventHub
