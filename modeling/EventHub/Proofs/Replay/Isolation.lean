import EventHub.Proofs.Replay.Reach

/-!
Isolation of dispatches, for every interleaving of traffic at one broker and for
every broker that a scenario runs. The calls under way in a world are those of its
traffic, so that each listener which runs was called by a dispatch on its course.
-/

namespace EventHub

open EventHub.Script EventHub.Simulation

namespace Simulation

section

variable (k : Nat)

/-- The dispatch at broker `k` that goes on once a listener has ended. -/
def Frame.dispatches {a b : Shape} :
    Frame a b → List (Dispatch Action × Subscription Action)
  | .delivered j d s _ => if j = k then [(d, s)] else []
  | _ => []

/-- The dispatches at broker `k` that wait for a listener, from the inside out. -/
def Future.dispatches : {a : Shape} → Future a → List (Dispatch Action × Subscription Action)
  | _, .bind inner frame => inner.dispatches ++ frame.dispatches k
  | _, .within _ inner => inner.dispatches
  | _, .followed first others => first.dispatches ++ others.dispatches
  | _, .abandon _ _ _ inner => inner.dispatches
  | _, _ => []

def Running.dispatches : Running → List (Dispatch Action × Subscription Action)
  | .unit f => f.dispatches k
  | .job _ f => f.dispatches k
  | .blocking _ f => f.dispatches k
  | .script _ f => f.dispatches k
  | .main f => f.dispatches k
  | .settling f => f.dispatches k
  | .finished => []

end

variable {k : Nat} {d : Dispatch Action} {s : Subscription Action} {x : Traffic Action}
  {ts : List Ticket}

/-- One of the tickets that are held has called the listener. -/
def Calls (x : Traffic Action) (ts : List Ticket) (d : Dispatch Action)
    (s : Subscription Action) : Prop :=
  ∃ t ∈ ts, x.tasks t = some ⟨.delivering d s, false⟩

theorem Calls.left {others : List Ticket} (h : Calls x ts d s) : Calls x (ts ++ others) d s := by
  obtain ⟨t, ht, htask⟩ := h
  exact ⟨t, List.mem_append_left _ ht, htask⟩

theorem Calls.right {others : List Ticket} (h : Calls x ts d s) : Calls x (others ++ ts) d s := by
  obtain ⟨t, ht, htask⟩ := h
  exact ⟨t, List.mem_append_right _ ht, htask⟩

theorem Frame.Holds.calls {a b : Shape} {frame : Frame a b} (h : frame.Holds k x ts)
    (hmem : (d, s) ∈ frame.dispatches k) : Calls x ts d s := by
  cases frame with
  | delivered j d' s' deadline =>
      rw [Frame.dispatches] at hmem
      split at hmem
      · rename_i hj
        cases List.mem_singleton.mp hmem
        have hcarries : Carries k x j (fun a => a = .delivering d s) ts := h
        rw [Carries, if_pos hj] at hcarries
        obtain ⟨t, a, rfl, htask, rfl⟩ := hcarries
        exact ⟨t, List.mem_singleton_self t, htask⟩
      · cases hmem
  | _ => cases hmem

theorem Future.Holds.calls {a : Shape} {f : Future a} (h : f.Holds k x ts)
    (hmem : (d, s) ∈ f.dispatches k) : Calls x ts d s := by
  induction f generalizing ts with
  | done o => cases hmem
  | begin b => cases hmem
  | wait w => cases hmem
  | bind inner frame ih =>
      obtain ⟨ti, tf, rfl, hinner, hframe⟩ := h
      rcases List.mem_append.mp hmem with hmem | hmem
      · exact (ih hinner hmem).left
      · exact (hframe.calls hmem).right
  | within alarm inner ih => exact ih h hmem
  | followed first others ihfirst ihothers =>
      obtain ⟨ti, tf, rfl, hfirst, hothers⟩ := h
      rcases List.mem_append.mp hmem with hmem | hmem
      · exact (ihfirst hfirst hmem).left
      · exact (ihothers hothers hmem).right
  | raceClose broker context steps => cases hmem
  | abandon broker alarm fill inner ih => exact ih h hmem

theorem Running.Holds.calls {r : Running} (h : r.Holds k x ts)
    (hmem : (d, s) ∈ r.dispatches k) : Calls x ts d s := by
  cases r with
  | unit f =>
      rcases h with h | hposts
      · exact Future.Holds.calls h hmem
      · -- a discard that nobody waits for calls no listener
        cases hposts <;> cases hmem
  | job id f => exact Future.Holds.calls h hmem
  | blocking id f => exact Future.Holds.calls h hmem
  | script token f => exact Future.Holds.calls h hmem
  | main f => exact Future.Holds.calls h hmem
  | settling f => exact Future.Holds.calls h hmem
  | finished => cases hmem

/-- The world replays the traffic, and every listener that runs in it was called by a
dispatch on its course, for the kind of event it was written for. -/
structure Mirrors (k : Nat) (x : Traffic Action) (w : World) : Prop
    extends Replays k none x w where
  course : ∀ j task d s, w.tasks[j]? = some task → (d, s) ∈ task.running.dispatches k →
    ∃ t, t.task = j ∧ x.tasks t = some ⟨.delivering d s, false⟩ ∧
      Course x.served t d.event (.delivering d s) (x.deliveries t) ∧
      Dispatch.mismatch? s d.event = none

theorem Replays.mirrors {w : World} (h : Replays k none x w) (hlawful : x.Lawful) :
    Mirrors k x w := by
  refine ⟨h, ?_⟩
  intro j task d s htask hmem
  obtain ⟨ts, hholds, hown⟩ := h.others j task (by simp) htask
  obtain ⟨t, ht, hcalls⟩ := hholds.calls hmem
  exact ⟨t, (hown.own t ht).1, hcalls, hlawful.course hcalls, hlawful.mismatch? hcalls⟩

end Simulation

/-- The world mirrors the traffic at each of its brokers, and goes on mirroring it. -/
theorem Scenario.Leads.mirrored {s : Scenario} {w : World} (h : Scenario.Leads s.start w)
    {k : Nat} {b : Broker Action} (hb : w.brokers[k]? = some b) :
    ∃ config worker moves, (Traffic.run config worker moves).broker = b ∧
      Mirrors k (Traffic.run config worker moves) w ∧
      ∀ w', Scenario.Leads w w' →
        ∃ later, Mirrors k (Traffic.run config worker (moves ++ later)) w' := by
  obtain ⟨x₀, hstart⟩ := Scenario.replays_start s k
  obtain ⟨x, hreplays, -⟩ := h.goesOn hstart
  obtain ⟨hbroker, -, config, worker, moves, rfl⟩ := hreplays.found b hb
  refine ⟨config, worker, moves, hbroker, hreplays.mirrors (Traffic.lawful_run _ _ _), ?_⟩
  intro w' hleads'
  obtain ⟨x', hreplays', honward⟩ := hleads'.goesOn hreplays
  obtain ⟨-, later, rfl⟩ := honward b hb
  rw [← Traffic.run_append] at hreplays'
  exact ⟨later, hreplays'.mirrors (Traffic.lawful_run _ _ _)⟩

open Traffic in
/-- Snapshot isolation. Whatever the interleaving, every dispatch is on its course; and
a broker that a scenario runs has traffic that the world mirrors from then on. -/
theorem snapshot_isolation :
    (∀ (L : Type) (config : Config) (worker : Ticket) (moves : List (Move L)),
      Isolated config worker moves) ∧
    ∀ (s : Scenario) (w : World), Scenario.Leads s.start w →
      ∀ (k : Nat) (b : Broker Action), w.brokers[k]? = some b →
        ∃ config worker moves, (Traffic.run config worker moves).broker = b ∧
          Mirrors k (Traffic.run config worker moves) w ∧
          ∀ w', Scenario.Leads w w' →
            ∃ later, Mirrors k (Traffic.run config worker (moves ++ later)) w' := by
  refine ⟨fun _ => isolated, ?_⟩
  intro s w hleads k b hb
  exact hleads.mirrored hb

namespace Traffic

/-- The call is accepted, the registry takes it, and the answer is there. -/
def answered (t : Ticket) : List (Move Nat) := [.task t .goOn, .work, .task t .goOn]

/-- A service registers and subscribes while it sets itself up. -/
def beforeFiring : List (Move Nat) :=
  .task ⟨1, 0⟩ (.begin (.register "index")) :: answered ⟨1, 0⟩ ++
  .task ⟨1, 1⟩ (.begin (.subscribe ⟨⟨1⟩, "index"⟩ ⟨.applicationStartup, 1⟩)) ::
    answered ⟨1, 1⟩ ++
  .task ⟨1, 0⟩ (.setUpEnded (.returned (.ok ()))) :: answered ⟨1, 0⟩

/-- While its listener is called it subscribes another one, and the broker closes. -/
def whileFiring : List (Move Nat) :=
  answered ⟨3, 0⟩ ++
  .task ⟨2, 0⟩ (.begin (.subscribe ⟨⟨1⟩, "index"⟩ ⟨.applicationStartup, 2⟩)) ::
    answered ⟨2, 0⟩ ++
  [.close, .work, .task ⟨3, 0⟩ (.listenerEnded (.returned (.ok ())))]

end Traffic

namespace Scenario

/-- A service whose listener waits for something that never happens. -/
def registersIndex : Step :=
  .broker 0 (.register (.scripted "index" [.broker 0 (.listen waiting none)] .done none) none)
where
  waiting : ListenerSpec Step :=
    ⟨.applicationStartup, "index", [.control (.waitGate "ready")], .done, none⟩

/-- The world while that listener runs. -/
def indexing : World :=
  let registered := (runStep none registersIndex).run (start {})
  ((runStep none (.broker 0 (.fire .startup))).run registered.2).2

end Scenario

open Traffic in
/-- The second listener is committed then, and not called. In the world the listener
that runs is on its course, in traffic that goes on from that of the beginning. -/
theorem snapshot_isolation_late_subscriber :
    let event : Event := { seq := 0, notice := .startup }
    let x := Traffic.run {} ⟨0, 0⟩
      (beforeFiring ++ .task ⟨3, 0⟩ (.begin (.fire event)) :: whileFiring)
    let early : Subscription Nat :=
      ⟨⟨⟨1⟩, "index"⟩, .applicationStartup, ⟨.applicationStartup, 1⟩⟩
    let late : Subscription Nat :=
      ⟨⟨⟨1⟩, "index"⟩, .applicationStartup, ⟨.applicationStartup, 2⟩⟩
    Served.committed x.served .applicationStartup = [early, late] ∧
    x.deliveries ⟨3, 0⟩ = [.called early event, .ended early (.returned (.ok ()))] ∧
    (∃ task, x.tasks ⟨3, 0⟩ = some task ∧
      Course x.served ⟨3, 0⟩ event task.activity (x.deliveries ⟨3, 0⟩)) ∧
    (Scenario.indexing.tasks.toList.map fun task => (task.running.dispatches 0).length) =
      [0, 0, 0, 1] ∧
    ∃ config worker moves, Mirrors 0 (Traffic.run config worker moves) Scenario.indexing := by
  have hisolated := snapshot_isolation.1 Nat {} ⟨0, 0⟩
    (beforeFiring ++ .task ⟨3, 0⟩ (.begin (.fire { seq := 0, notice := .startup })) :: whileFiring)
  obtain ⟨config, worker, moves, -, -, honward⟩ := snapshot_isolation.2 {} _ .refl 0 _ rfl
  have hleads : Scenario.Leads (Scenario.start {}) Scenario.indexing :=
    (Scenario.Leads.refl.runStep none Scenario.registersIndex).runStep none _
  obtain ⟨later, hmirrors⟩ := honward _ hleads
  exact ⟨rfl, rfl, hisolated.course beforeFiring ⟨3, 0⟩ _ whileFiring rfl rfl,
    by decide +kernel, config, worker, moves ++ later, hmirrors⟩

end EventHub
