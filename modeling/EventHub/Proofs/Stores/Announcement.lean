import EventHub.Proofs.Stores.Stopping

/-!
Announcing the shutdown. A call that stops the application fires an event, and has closed the
broker when it comes to its end. A call that begins at a closed broker is not heard: a stop is
refused its event, and a run is refused its startup. So of calls that are made one after another
one at most is heard, whatever else goes on. A stop that begins while another call is still under
way may be heard as well.
-/

namespace EventHub

open EventHub.Script EventHub.Simulation

namespace Simulation

/-- The calls that stop the application: one that does so at once, and one that starts it and waits
until it is asked to. -/
inductive StopCall
  | stop (reason : ShutdownReason)
  | run (services : List Service)

def StopCall.code : StopCall → Future .drain
  | .stop reason => .begin (.stop reason)
  | .run services => .bind (.begin (.start services)) .runStarted

/-- What has become of the announcement of a shutdown. -/
inductive Announcement
  /-- The application was not started, so there is nothing to announce. -/
  | notMade
  /-- The broker has refused the event. -/
  | refused
  /-- Whoever listened was told. -/
  | heard
  deriving DecidableEq

def Announcement.ofEvent : Except BrokerError Unit → Announcement
  | .ok () => .heard
  | .error _ => .refused

/-- In these turns a call of stop has fired its event, and what that has come to goes into its
outcome, beside a grace that has run out. -/
def Heralds (reason : ShutdownReason) (turns : List (World × World))
    (o : Outcome (Except RuntimeError Unit)) (announced : Except BrokerError Unit) : Prop :=
  ∃ first announcing u drained, turns.head?.map Prod.fst = some first ∧
    Announces reason announcing ((Sim.begin (.stop reason)).run first).2 u announced ∧
    (drained = .ok () ∨ ∃ grace names, drained = .error (.graceExceeded grace names)) ∧
    o = .returned (stopResult announced drained)

/-- What a call has announced in these turns, with its outcome. A run first starts the application.
If that fails it goes no further, and else its last turns are those of a stop. -/
inductive Tells (turns : List (World × World)) (o : Outcome (Except RuntimeError Unit)) :
    StopCall → Announcement → Prop
  | stops {reason : ShutdownReason} {announced : Except BrokerError Unit}
      (hheralds : Heralds reason turns o announced) :
      Tells turns o (.stop reason) (.ofEvent announced)
  | runs {services : List Service} {names : List String} {reason : ShutdownReason}
      {own part : List (World × World)} {announced : Except BrokerError Unit}
      (hstarted : Runs (.begin (.start services)) own (.returned (.ok names)))
      (hopens : Opens own turns) (hpart : part.map Prod.snd <:+ turns.map Prod.snd)
      (hheralds : Heralds reason part o announced) :
      Tells turns o (.run services) (.ofEvent announced)
  | fails {services : List Service} {own : List (World × World)} {e : RuntimeError}
      (hfailed : Runs (.begin (.start services)) own (.returned (.error e)))
      (hopens : Opens own turns) (ho : o = .returned (.error e)) :
      Tells turns o (.run services) .notMade
  | breaksOff {services : List Service} {own : List (World × World)} {payload : Payload}
      (hbroken : Runs (.begin (.start services)) own (.panicked payload))
      (hopens : Opens own turns) (ho : o = .panicked payload) :
      Tells turns o (.run services) .notMade

/-- What goes on beside the calls: the stores go on by acts, and a closed broker stays closed. -/
structure Becomes (v w : World) : Prop where
  acts : AllActs v.stores w.stores
  shut : v.IsShut → w.IsShut

theorem becomes_refl (w : World) : Becomes w w := ⟨.refl _, id⟩

theorem Performs.byActs {a : Shape} {least : Nat} {v : World} {f : Future a}
    {turns : List (World × World)} {o : Outcome a.Value}
    (h : Performs (fun _ => Becomes) least v f turns o) : Performs ByActs least v f turns o :=
  h.imp fun _ _ _ hbecomes => hbecomes.acts

/-- A call that has come to its end, with its turns and its outcome. -/
structure EndedCall where
  call : StopCall
  turns : List (World × World)
  outcome : Outcome (Except RuntimeError Unit)

/-- What a call says of its announcement by its outcome: it was heard, if the call has not failed
with the broker. -/
def EndedCall.isHeard (c : EndedCall) : Bool :=
  match c.outcome with
  | .returned (.ok ()) => true
  | .returned (.error (.graceExceeded ..)) => true
  | _ => false

/-- From this world on calls are made one after another. Each begins when the one before has come
to its end, and others may go on before it and between its turns. -/
inductive OneByOne : World → List EndedCall → Prop
  | none (v : World) : OneByOne v []
  | next {v last : World} {c : EndedCall} {calls : List EndedCall}
      (hcall : Performs (fun _ => Becomes) 12 v c.call.code c.turns c.outcome)
      (hlast : c.turns.getLast?.map Prod.snd = some last) (hrest : OneByOne last calls) :
      OneByOne v (c :: calls)

variable {v w w' : World} {rest : List (World × World)}

/-- A run that begins at a closed broker is refused its startup, and stops nothing. -/
theorem run_refused {services : List Service} {last : World}
    {o : Outcome (Except RuntimeError Unit)}
    (h : Performs ByActs 12 v (StopCall.run services).code ((w, w') :: rest) o)
    (hlast : ((w, w') :: rest).getLast?.map Prod.snd = some last) (hshut : w.IsShut) :
    Tells ((w, w') :: rest) o (.run services) .notMade ∧ last.IsShut := by
  obtain ⟨own, ended, u, u', later, hstart, hspans, hopens, hgoes, hends⟩ := h.of_bind byActs_refl
  obtain ⟨x, x', more, rfl, -⟩ := hstart.first_turn
  obtain rfl : x = w := Option.some.inj hspans.first
  obtain ⟨rfl, hstays⟩ := startup_refused (fun _ => byActs_refl _) (hstart.mono (by decide))
    hspans.last hshut
  have hresumed : (Sim.resume .runStarted (.returned (.error (.broker .closed)))).run u =
      (.value (.error (.broker .closed)), u) := rfl
  rw [hresumed] at hgoes
  obtain ⟨rfl, rfl, rfl⟩ := hgoes.of_ended
  obtain rfl : u' = last := Option.some.inj ((last_of_suffix (u := u') hends).trans hlast)
  exact ⟨.fails hstart.runs hopens rfl, hstays⟩

/-! ### The stop that a run comes to -/

theorem Sim.check_interruption (t : Ticket) (w : World) :
    ((Sim.check (.interruption t)).run w).1 = .pending (.interruption t) ∨
      ∃ reason, ((Sim.check (.interruption t)).run w).1 = .next (.value reason) := by
  rw [Sim.check]
  simp only [Sim.run_bind]
  split
  · exact Or.inr ⟨_, rfl⟩
  · split
    · exact Or.inr ⟨_, rfl⟩
    · exact Or.inl rfl

/-- Waiting for an interruption ends with the reason for it. -/
theorem runs_interruption {turns : List (World × World)} {o : Outcome ShutdownReason}
    (h : Runs (.begin .interruption) turns o) : ∃ reason, o = .returned reason := by
  obtain ⟨_, w, w', rest, -, hruns⟩ := h.of_begin
  have hbegun : ((Sim.begin .interruption).run w).1 =
      .wait (.interruption ((Sim.ticket.run w).1)) := by
    rw [Sim.begin]
    simp only [Sim.run_bind]
    split <;> rfl
  rw [hbegun] at hruns
  have hpending (wait : Wait .reason) (w : World) (next : Wait .reason)
      (hwait : ∃ t, wait = .interruption t)
      (hnext : ((Sim.check wait).run w).1 = .pending next) : ∃ t, next = .interruption t := by
    obtain ⟨t, rfl⟩ := hwait
    rcases Sim.check_interruption t w with hpending | ⟨reason, hended⟩
    · cases hpending.symm.trans hnext
      exact ⟨t, rfl⟩
    · cases hended.symm.trans hnext
  obtain ⟨_, _, v, _, _, f, ⟨t, rfl⟩, -, hnext, hruns⟩ :=
    hruns.of_wait hpending ⟨_, rfl⟩
  rcases Sim.check_interruption t v with hpending | ⟨reason, hended⟩
  · cases hpending.symm.trans hnext
  · cases hended.symm.trans hnext
    obtain ⟨rfl, -⟩ := hruns.of_done
    exact ⟨reason, rfl⟩

/-- A run whose startup succeeds comes to a stop, in its last turns. -/
theorem run_stops {services : List Service} {turns : List (World × World)}
    {o : Outcome (Except RuntimeError Unit)}
    (h : Performs ByActs 12 v (StopCall.run services).code turns o) :
    Tells turns o (.run services) .notMade ∨ ∃ own names reason u part,
      Runs (.begin (.start services)) own (.returned (.ok names)) ∧ Opens own turns ∧
      AllActs v.stores u.stores ∧ Performs ByActs 10 u (.begin (.stop reason)) part o ∧
      part.map Prod.snd <:+ turns.map Prod.snd := by
  obtain ⟨w, w', rest, rfl, -⟩ := h.first_turn
  obtain ⟨own, ended, u, u', later, hstart, hspans, hopens, hgoes, hends⟩ := h.of_bind byActs_refl
  cases ended with
  | panicked payload =>
      have hresumed : (Sim.resume .runStarted (.panicked payload)).run u = (.panic payload, u) :=
        rfl
      rw [hresumed] at hgoes
      obtain ⟨rfl, -⟩ := hgoes.of_ended
      exact Or.inl (.breaksOff hstart.runs hopens rfl)
  | returned result =>
      cases result with
      | error e =>
          have hresumed : (Sim.resume .runStarted (.returned (.error e))).run u =
              (.value (.error e), u) := rfl
          rw [hresumed] at hgoes
          obtain ⟨rfl, -⟩ := hgoes.of_ended
          exact Or.inl (.fails hstart.runs hopens rfl)
      | ok names =>
          have hresumed : (Sim.resume .runStarted (.returned (.ok names))).run u =
              (.bind (.begin .interruption) .interrupted, u) := rfl
          rw [hresumed] at hgoes
          obtain ⟨waiting, ended, z, z', part, hwaits, hwaiting, -, hstop, hlast⟩ :=
            hgoes.of_bind byActs_refl
          obtain ⟨reason, rfl⟩ := runs_interruption hwaits.runs
          have hresumed : (Sim.resume .interrupted (.returned reason)).run z =
              (Sim.begin (.stop reason)).run z := by
            rw [Sim.begin]
            rfl
          rw [hresumed] at hstop
          have hstarted := hstart.lasting rfl hspans.last
          have hwaited := hwaits.lasting rfl hwaiting.last
          exact Or.inr ⟨own, names, reason, z, (z, z') :: part, hstart.runs, hopens,
            hstarted.trans hwaited, hstop.begun (byActs_refl _ z), hlast.trans hends⟩

/-! ### What an outcome says -/

theorem Heralds.isHeard_iff {reason : ShutdownReason} {turns part : List (World × World)}
    {o : Outcome (Except RuntimeError Unit)} {announced : Except BrokerError Unit}
    (h : Heralds reason part o announced) (call : StopCall) :
    Announcement.ofEvent announced = .heard ↔ (EndedCall.mk call turns o).isHeard = true := by
  obtain ⟨_, _, _, drained, -, -, hdrained, rfl⟩ := h
  cases announced with
  | error e => simp [Announcement.ofEvent, EndedCall.isHeard, stopResult]
  | ok told =>
      rcases hdrained with rfl | ⟨grace, names, rfl⟩ <;>
        simp [Announcement.ofEvent, EndedCall.isHeard, stopResult]

/-- The outcome of a call tells whether it was heard. -/
theorem Tells.heard_iff {c : EndedCall} {announcement : Announcement}
    (h : Tells c.turns c.outcome c.call announcement) :
    announcement = .heard ↔ c.isHeard = true := by
  obtain ⟨call, turns, o⟩ := c
  cases h with
  | stops hheralds => exact hheralds.isHeard_iff _
  | runs _ _ _ hheralds => exact hheralds.isHeard_iff _
  | fails hfailed _ ho =>
      cases ho
      obtain ⟨error, rfl⟩ := broker_of_start hfailed
      simp [EndedCall.isHeard]
  | breaksOff _ _ ho =>
      cases ho
      simp [EndedCall.isHeard]

/-! ### One call after another -/

theorem Stops.heralds {config : Config} {reason : ShutdownReason} {turns : List (World × World)}
    {o : Outcome (Except RuntimeError Unit)} (h : Stops config reason turns o) :
    ∃ announced, Heralds reason turns o announced := by
  obtain ⟨first, _, announcing, announced, u, _, drained, _, _, hspans, rfl, hannounces, hdrains, -,
    ho⟩ := h.phases
  refine ⟨announced, first, announcing, u, drained, hspans.first, hannounces, ?_, ho⟩
  by_cases hdrained : drained = .ok ()
  · exact Or.inl hdrained
  · obtain ⟨-, hexceeded⟩ := hdrains.fails hdrained
    exact Or.inr ⟨_, _, hexceeded⟩

/-- A stop ends with a closed broker. -/
theorem Stops.isShut {config : Config} {reason : ShutdownReason} {part : List (World × World)}
    {o : Outcome (Except RuntimeError Unit)} (h : Stops config reason part o)
    {turns : List (World × World)} {last : World} (hpart : part.map Prod.snd <:+ turns.map Prod.snd)
    (hlast : turns.getLast?.map Prod.snd = some last) : last.IsShut := by
  obtain ⟨_, _, _, _, _, _, _, _, last', hspans, -⟩ := h.phases
  cases (last_of_part hpart hspans.last).symm.trans hlast
  exact fun b => h.brokerClosed last b hspans.last

namespace EndedCall

variable {c : EndedCall} {last : World} {config : Config} {moves : List Pool.Move}

/-- A call tells what it has announced, and has closed the broker if it was heard. -/
theorem tells (hpool : v.pool = (Pool.new config).run moves)
    (h : Performs ByActs 12 v c.call.code c.turns c.outcome)
    (hlast : c.turns.getLast?.map Prod.snd = some last) :
    ∃ announcement, Tells c.turns c.outcome c.call announcement ∧
      (announcement = .heard → last.IsShut) := by
  obtain ⟨call, turns, o⟩ := c
  cases call with
  | stop reason =>
      have hstops := stops_of_performs hpool (h.mono (by decide : 10 ≤ 12))
      obtain ⟨announced, hheralds⟩ := hstops.heralds
      exact ⟨_, .stops hheralds, fun _ => hstops.isShut List.suffix_rfl hlast⟩
  | run services =>
      rcases run_stops h with hnothing |
        ⟨own, names, reason, u, part, hstarted, hopens, hacts, hstop, hpart⟩
      · exact ⟨.notMade, hnothing, fun h => by cases h⟩
      · obtain ⟨more, hmore⟩ : ∃ more, u.pool = v.pool.run more := hacts.pool
        rw [hpool, ← Pool.run_append] at hmore
        have hstops := stops_of_performs hmore hstop
        obtain ⟨announced, hheralds⟩ := hstops.heralds
        exact ⟨_, .runs hstarted hopens hpart hheralds, fun _ => hstops.isShut hpart hlast⟩

/-- A call that begins at a closed broker is not heard, and leaves it closed. -/
theorem silent (hpool : v.pool = (Pool.new config).run moves)
    (h : Performs (fun _ => Becomes) 12 v c.call.code c.turns c.outcome)
    (hlast : c.turns.getLast?.map Prod.snd = some last) (hshut : v.IsShut) :
    ∃ announcement, Tells c.turns c.outcome c.call announcement ∧ announcement ≠ .heard ∧
      last.IsShut := by
  obtain ⟨call, turns, o⟩ := c
  obtain ⟨w, w', rest, rfl, hsince⟩ := h.first_turn
  have h : Performs ByActs 12 v call.code ((w, w') :: rest) o := h.byActs
  cases call with
  | stop reason =>
      have hstop := h.mono (by decide : 10 ≤ 12)
      obtain ⟨asked, u, rfl, hannounces, -, ho⟩ :=
        stop_refused hpool hstop (hsince.shut hshut)
      have hheralds : Heralds reason ((w, w') :: rest) o (.error .closed) :=
        ⟨w, _, u, .ok (), rfl, hannounces, Or.inl rfl, ho⟩
      exact ⟨.refused, .stops hheralds, by decide,
        (stops_of_performs hpool hstop).isShut List.suffix_rfl hlast⟩
  | run services =>
      obtain ⟨htells, hstays⟩ := run_refused h hlast (hsince.shut hshut)
      exact ⟨.notMade, htells, by decide, hstays⟩

theorem moves_onward (hpool : v.pool = (Pool.new config).run moves)
    (h : Performs ByActs 12 v c.call.code c.turns c.outcome)
    (hlast : c.turns.getLast?.map Prod.snd = some last) :
    ∃ more, last.pool = (Pool.new config).run (moves ++ more) := by
  have hjobless : c.call.code.isJobless = true := by
    cases c.call <;> rfl
  obtain ⟨more, hmore⟩ : ∃ more, last.pool = v.pool.run more := (h.lasting hjobless hlast).pool
  exact ⟨more, by rw [hmore, hpool, Pool.run_append]⟩

end EndedCall

/-- What these calls have announced, one by one. -/
abbrev AllTell (calls : List EndedCall) (announcements : List Announcement) : Prop :=
  List.Forall₂ (fun c => Tells c.turns c.outcome c.call) calls announcements

/-- However often it is told, the calls that were heard are those that say so. -/
theorem AllTell.count {calls : List EndedCall} {announcements : List Announcement}
    (h : AllTell calls announcements) :
    announcements.count .heard = calls.countP EndedCall.isHeard := by
  induction h with
  | nil => rfl
  | cons htells _ ih =>
      rw [List.count_cons, List.countP_cons, ih]
      simp [htells.heard_iff]

namespace OneByOne

variable {calls : List EndedCall} {config : Config} {moves : List Pool.Move}

/-- Once the broker is closed, nobody hears of a shutdown any more. -/
theorem silent (h : OneByOne v calls) (hpool : v.pool = (Pool.new config).run moves)
    (hshut : v.IsShut) :
    ∃ announcements, AllTell calls announcements ∧ announcements.count .heard = 0 := by
  induction h generalizing moves with
  | none => exact ⟨[], .nil, rfl⟩
  | next hcall hlast _ ih =>
      obtain ⟨announcement, htells, hunheard, hstays⟩ := EndedCall.silent hpool hcall hlast hshut
      obtain ⟨more, hmore⟩ := EndedCall.moves_onward hpool hcall.byActs hlast
      obtain ⟨announcements, hall, hcount⟩ := ih hmore hstays
      exact ⟨announcement :: announcements, .cons htells hall,
        (List.count_cons_of_ne hunheard).trans hcount⟩

/-- The call that is heard leaves the broker closed, so the ones after it are not. -/
theorem heard_once (h : OneByOne v calls) (hpool : v.pool = (Pool.new config).run moves) :
    ∃ announcements, AllTell calls announcements ∧ announcements.count .heard ≤ 1 := by
  induction h generalizing moves with
  | none => exact ⟨[], .nil, Nat.zero_le 1⟩
  | next hcall hlast hrest ih =>
      obtain ⟨announcement, htells, hcloses⟩ := EndedCall.tells hpool hcall.byActs hlast
      obtain ⟨more, hmore⟩ := EndedCall.moves_onward hpool hcall.byActs hlast
      by_cases hheard : announcement = .heard
      · obtain ⟨announcements, hall, hnone⟩ := hrest.silent hmore (hcloses hheard)
        refine ⟨announcement :: announcements, .cons htells hall, ?_⟩
        rw [hheard, List.count_cons_self]
        omega
      · obtain ⟨announcements, hall, honce⟩ := ih hmore
        refine ⟨announcement :: announcements, .cons htells hall, ?_⟩
        rwa [List.count_cons_of_ne hheard]

end OneByOne

end Simulation

namespace Scenario

variable {s : Scenario} {w w' : World}

theorem broker_start (s : Scenario) : ∃ b, s.start.brokers[0]? = some b := by
  obtain ⟨config, preset, parser⟩ := s
  cases parser <;> exact ⟨_, rfl⟩

/-- As a world goes on, its stores go on by acts and its broker stays closed once it is. -/
theorem Leads.becomes (h : Leads s.start w) (h' : Leads w w') : Becomes w w' := by
  refine ⟨(h'.turns (h.turns setUp_start.inStep).inStep).acts, ?_⟩
  intro hshut b' hb'
  obtain ⟨b₀, hb₀⟩ := broker_start s
  obtain ⟨_, hstart⟩ := replays_start s 0
  obtain ⟨x, hx, honward⟩ := h.goesOn hstart
  obtain ⟨⟨b, hb⟩, -⟩ := honward b₀ hb₀
  obtain ⟨hbroker, -, config, worker, moves, rfl⟩ := hx.found b hb
  obtain ⟨y, hy, honward'⟩ := h'.goesOn hx
  obtain ⟨-, later, rfl⟩ := honward' b hb
  obtain ⟨hbroker', -⟩ := hy.found b' hb'
  rw [← hbroker']
  refine (Traffic.closed_foldl (Traffic.lawful_run config worker moves) ?_ later).1
  rw [hbroker]
  exact hshut b hb

end Scenario

/-- Of calls that stop the application and do not overlap, one at most is heard. Whatever else goes
on before them and between their turns, each tells what it has announced, and of what they tell one
announcement at most has reached those who listen. What goes on is what leads from one world to
another, with all its tasks, its signals and its requests for a shutdown. -/
theorem shutdown_announced_once (s : Scenario) :
    (∀ v w, Scenario.Leads s.start v → Scenario.Leads v w → Becomes v w) ∧
    ∀ v calls, Scenario.Leads s.start v → OneByOne v calls →
      (∃ announcements, AllTell calls announcements) ∧
      ∀ announcements, AllTell calls announcements → announcements.count .heard ≤ 1 := by
  refine ⟨fun v w hleads honward => hleads.becomes honward, ?_⟩
  intro v calls hleads hcalls
  obtain ⟨moves, hpool⟩ := hleads.pool
  obtain ⟨told, htold, honce⟩ := hcalls.heard_once hpool
  refine ⟨⟨told, htold⟩, ?_⟩
  intro announcements hall
  rwa [hall.count, ← htold.count]

namespace Scenario

/-- The two turns of a stop where a service listens: it asks who does, and then it goes on to its
end. -/
def stopAsksWitness : Future .drain × World := turnOf (.begin (.stop .requested)) witnessed

def stopHeard : Future .drain × World := turnOf stopAsksWitness.1 (answered stopAsksWitness.2)

/-- Another stop after it, in one turn. -/
def stopAgain : Future .drain × World := turnOf (.begin (.stop .signal)) stopHeard.2

/-- The application is run once more after both. -/
def runAgain : Future .drain × World := turnOf (StopCall.run []).code stopAgain.2

def threeCalls : List EndedCall :=
  [⟨.stop .requested, [(witnessed, stopAsksWitness.2), (answered stopAsksWitness.2, stopHeard.2)],
      .returned (.ok ())⟩,
    ⟨.stop .signal, [(stopHeard.2, stopAgain.2)], .returned (.error (.broker .closed))⟩,
    ⟨.run [], [(stopAgain.2, runAgain.2)], .returned (.error (.broker .closed))⟩]

/-- The world after the application was stopped while another task ran it. -/
def runStopped : World :=
  let running := (runStep none (.control (.spawn none [.lifecycle (.run [] none)]))).run witnessed
  ((runStep none (.lifecycle (.stop .requested))).run running.2).2

end Scenario

open Scenario in
theorem oneByOne_threeCalls : OneByOne witnessed threeCalls := by
  have hasks : stopAsksWitness.1.isDone = false := by decide +kernel
  have hheard : stopHeard.1.drained? = some (.ok ()) := by decide +kernel
  have hagain : stopAgain.1.drained? = some (.error (.broker .closed)) := by decide +kernel
  have hrun : runAgain.1.drained? = some (.error (.broker .closed)) := by decide +kernel
  have hopen : stopAsksWitness.2.brokers[0]?.map (·.isClosed) = some false := by decide +kernel
  have hanswered : Becomes stopAsksWitness.2 (answered stopAsksWitness.2) := by
    refine ⟨.of_eq (stores_answered _), ?_⟩
    intro hshut
    obtain ⟨b, hb, hclosed⟩ := Option.map_eq_some_iff.mp hopen
    rw [hshut b hb] at hclosed
    cases hclosed
  have hfirst : Performs (fun _ => Becomes) 12 witnessed (.begin (.stop .requested))
      [(witnessed, stopAsksWitness.2), (answered stopAsksWitness.2, stopHeard.2)]
      (.returned (.ok ())) :=
    performs_of_turn (by decide) (becomes_refl _) hasks
      (performs_of_drained? (by decide) hanswered hheard)
  have hsecond : Performs (fun _ => Becomes) 12 stopHeard.2 (.begin (.stop .signal))
      [(stopHeard.2, stopAgain.2)] (.returned (.error (.broker .closed))) :=
    performs_of_drained? (by decide) (becomes_refl _) hagain
  have hthird : Performs (fun _ => Becomes) 12 stopAgain.2 (StopCall.run []).code
      [(stopAgain.2, runAgain.2)] (.returned (.error (.broker .closed))) :=
    performs_of_drained? (by decide) (becomes_refl _) hrun
  have hends (turns : List (World × World)) (w last : World) :
      (turns ++ [(w, last)]).getLast?.map Prod.snd = some last := by
    rw [List.getLast?_concat]
    rfl
  exact .next hfirst (hends [_] _ _) (.next hsecond (hends [] _ _) (.next hthird (hends [] _ _)
    (.none _)))

open Scenario in
/-- Two stops and a run, one after another: the first is heard, and nobody hears of the others. -/
theorem shutdown_announced_once_stopped :
    OneByOne witnessed threeCalls ∧ threeCalls.map EndedCall.isHeard = [true, false, false] ∧
      runAgain.2.seen.filterMap (·.shutdown?) = [0] ∧
      ∃ announcements, AllTell threeCalls announcements ∧ announcements.count .heard ≤ 1 := by
  have hleads : Leads (start {}) witnessed := Leads.refl.runStep none registersWitness
  obtain ⟨⟨announcements, hall⟩, honce⟩ :=
    (shutdown_announced_once {}).2 _ _ hleads oneByOne_threeCalls
  have hsays : threeCalls.map EndedCall.isHeard = [true, false, false] := by
    simp [threeCalls, EndedCall.isHeard]
  exact ⟨oneByOne_threeCalls, hsays, by decide +kernel, announcements, hall, honce _ hall⟩

/-- A run that waits for an interruption is woken by the stop and stops the application as well:
the shutdown is announced a second time. -/
theorem shutdown_announced_twice :
    Scenario.runStopped.seen.filterMap (·.shutdown?) = [1, 2] := by
  decide +kernel

end EventHub
