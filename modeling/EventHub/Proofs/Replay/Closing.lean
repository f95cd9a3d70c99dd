import EventHub.Proofs.Replay.Admission
import EventHub.Proofs.Traffic.Closing

/-!
Closing a broker that a scenario runs. The calls under way in a world are those of its
traffic, so they end as the traffic's do, and what is begun afterwards is refused.
-/

namespace EventHub

open EventHub.Script EventHub.Simulation

open Traffic in
/-- Closing is clean. Whatever is under way when a broker is closed, each command was applied
and is answered, or is dropped and its caller told so; nobody is left waiting once the
registry has stopped, nothing that is begun afterwards has any effect, and the broker never
reopens. So it is at every broker of every world. -/
theorem clean_close :
    (∀ (L : Type) (config : Config) (worker : Ticket) (moves : List (Move L)),
      (run config worker moves).broker.Closing ∧
        ((run config worker moves).broker.isClosed = true → Closes config worker moves)) ∧
    ∀ (s : Scenario) (w : World), Scenario.Leads s.start w →
      ∀ (k : Nat) (b : Broker Action), w.brokers[k]? = some b →
        b.Closing ∧ ∃ config worker moves, (run config worker moves).broker = b ∧
          Mirrors k (run config worker moves) w ∧
          (b.isClosed = true → Closes config worker moves) ∧
          ∀ w' b', Scenario.Leads w w' → w'.brokers[k]? = some b' →
            ∃ later, (run config worker (moves ++ later)).broker = b' ∧
              Mirrors k (run config worker (moves ++ later)) w' ∧
              (b'.isClosed = true → Closes config worker (moves ++ later)) ∧
              (b.isClosed = true → b'.isClosed = true ∧ b'.registry = b.registry) := by
  refine ⟨fun _ config worker moves => ⟨Broker.closing _, closes_run⟩, ?_⟩
  intro s w hleads k b hb
  obtain ⟨config, worker, moves, rfl, hmirrors, honward⟩ := hleads.mirrored hb
  refine ⟨Broker.closing _, config, worker, moves, rfl, hmirrors, closes_run, ?_⟩
  intro w' b' hleads' hb'
  obtain ⟨later, hmirrors'⟩ := honward w' hleads'
  obtain ⟨rfl, -⟩ := hmirrors'.found b' hb'
  refine ⟨later, rfl, hmirrors', closes_run, ?_⟩
  intro hclosed
  obtain ⟨hstays, -, hbooks⟩ := (closes_run hclosed).lasts later
  exact ⟨hstays, hbooks⟩

namespace Traffic

/-- One call is answered and has not gone on, one registration has failed to set its service
up, one command is in the mailbox, and for the next one there is no room. -/
def underWay : List (Move Nat) :=
  [.task ⟨1, 0⟩ (.begin .list), .task ⟨1, 0⟩ .goOn, .task ⟨1, 0⟩ .goOn, .work,
    .task ⟨2, 0⟩ (.begin (.register "index")), .task ⟨2, 0⟩ .goOn, .work, .task ⟨2, 0⟩ .goOn,
    .task ⟨2, 0⟩ (.setUpEnded (.returned (.error (.setup "no index")))),
    .task ⟨3, 0⟩ (.begin (.fire { seq := 0, notice := .startup })), .task ⟨3, 0⟩ .goOn,
    .task ⟨3, 0⟩ .goOn,
    .task ⟨4, 0⟩ (.begin (.subscribe ⟨⟨1⟩, "index"⟩ ⟨.applicationStartup, 1⟩)), .task ⟨4, 0⟩ .goOn,
    .task ⟨2, 0⟩ .goOn]

/-- Everybody goes on, and somebody comes too late. -/
def afterClosing : List (Move Nat) :=
  [.task ⟨1, 0⟩ .goOn, .task ⟨2, 0⟩ .goOn, .task ⟨3, 0⟩ .goOn, .task ⟨4, 0⟩ .goOn,
    .task ⟨5, 0⟩ (.begin (.register "late"))]

end Traffic

namespace Scenario

/-- The world once its broker is shut while a listener runs. -/
def shut : World := ((runStep none (.broker 0 .shut)).run indexing).2

end Scenario

open Traffic in
/-- With room for one command, the four are stopped where they are: three of them wait and are
woken, and each comes to its end as it should. In the world the broker that is shut behaves
like that. -/
theorem clean_close_each_phase :
    let closed := underWay ++ [.close]
    let x := run { mailboxCapacity := 1 } ⟨0, 0⟩ closed
    let stopped := run { mailboxCapacity := 1 } ⟨0, 0⟩ (closed ++ [.work])
    let final := run { mailboxCapacity := 1 } ⟨0, 0⟩ (closed ++ .work :: afterClosing)
    (∀ t ∈ [⟨2, 0⟩, ⟨3, 0⟩, ⟨4, 0⟩], x.Waits t ∧ t ∈ x.broker.step.outbox.wakes) ∧
    stopped.Resumes ⟨1, 0⟩ (.listing (.awaiting ⟨1, 0⟩)) .services ∧
    stopped.Resumes ⟨3, 0⟩ (.firing { seq := 0, notice := .startup } (.awaiting ⟨3, 0⟩))
      (.snapshot .applicationStartup) ∧
    final.tasks ⟨1, 0⟩ = some ⟨.listed (.ok (.services [])), false⟩ ∧
    final.tasks ⟨2, 0⟩ = some ⟨.registered "index"
      (.error (.initializationFailed "index" (ServiceError.setup "no index").message)), false⟩ ∧
    final.tasks ⟨3, 0⟩ =
      some ⟨.fired { seq := 0, notice := .startup } (.error .closed), false⟩ ∧
    final.tasks ⟨4, 0⟩ = some ⟨.subscribed ⟨⟨1⟩, "index"⟩ ⟨.applicationStartup, 1⟩
      (.error .closed), false⟩ ∧
    final.tasks ⟨5, 0⟩ = some ⟨.registered "late" (.error .closed), false⟩ ∧
    ∃ config worker moves, Mirrors 0 (run config worker moves) Scenario.shut ∧
      Closes config worker moves := by
  have hcloses (moves : List (Move Nat)) :=
    clean_close.1 Nat { mailboxCapacity := 1 } ⟨0, 0⟩ moves
  have hclosed := (hcloses (underWay ++ [.close])).2 rfl
  have hstopped := (hcloses (underWay ++ [.close] ++ [.work])).2 rfl
  have hwakes := (hclosed.stops rfl).2
  -- nothing changes for a task that is put back where it was
  have hsame (t : Ticket) :
      let x := run { mailboxCapacity := 1 } ⟨0, 0⟩ (underWay ++ [.close])
      ({ x with tasks := Function.update x.tasks t (x.tasks t) } : Traffic Nat) = x := by
    intro x
    rw [Function.update_eq_self]
  have hwaits : ∀ t ∈ [⟨2, 0⟩, ⟨3, 0⟩, ⟨4, 0⟩],
      (run { mailboxCapacity := 1 } ⟨0, 0⟩ (underWay ++ [.close])).Waits t := by
    intro t ht
    simp only [List.mem_cons, List.not_mem_nil, or_false] at ht
    rcases ht with rfl | rfl | rfl
    · exact ⟨⟨_, rfl, trivial⟩, hsame ⟨2, 0⟩⟩
    · exact ⟨⟨_, rfl, by simp [Activity.IsBound, Activity.call?]⟩, hsame ⟨3, 0⟩⟩
    · exact ⟨⟨_, rfl, by simp [Activity.IsBound, Activity.call?]⟩, hsame ⟨4, 0⟩⟩
  have hleads : Scenario.Leads (Scenario.start {}) Scenario.shut :=
    ((Scenario.Leads.refl.runStep none Scenario.registersIndex).runStep none _).runStep none _
  have hshut : (Scenario.shut.brokers[0]?.map fun b => b.isClosed) = some true := by
    decide +kernel
  obtain ⟨b, hb, hisClosed⟩ := Option.map_eq_some_iff.mp hshut
  obtain ⟨-, config, worker, moves, -, hmirrors, hcloses', -⟩ := clean_close.2 {} _ hleads 0 b hb
  exact ⟨fun t ht => ⟨hwaits t ht, hwakes t (hwaits t ht)⟩, hstopped.calls _ _ _ _ rfl rfl,
    hstopped.calls _ _ _ _ rfl rfl, rfl, rfl, rfl, rfl, rfl,
    config, worker, moves, hmirrors, hcloses' hisClosed⟩

end EventHub
