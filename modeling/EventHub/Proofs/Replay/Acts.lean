import EventHub.Proofs.Replay.Plays

/-!
What a task does at the broker that the traffic is about: its calls are turns of the
tickets it holds, and the functions that the computations call are those of the
traffic.
-/

namespace EventHub.Simulation

open EventHub.Script

variable {k i : Nat} {x : Traffic Action} {w : World}

namespace Replays

/-- The broker moves as the traffic does, and no ticket of another task with it. -/
theorem foldl (h : Replays k (some i) x w) {b b' : Broker Action} (hb : w.brokers[k]? = some b)
    (moves : List (Move Action)) {x' : Traffic Action} (hx' : moves.foldl Traffic.step x = x')
    (hbroker : x'.broker = b'.flushed)
    (htasks : ∀ t, t.task ≠ i ∨ w.serial ≤ t.serial → x'.tasks t = x.tasks t)
    (horphans : x.orphans ⊆ x'.orphans) :
    Replays k (some i) x' { w with brokers := w.brokers.set! k b'.flushed } := by
  have hset : (w.brokers.set! k b'.flushed)[k]? = some b'.flushed := getElem?_set_self hb _
  obtain ⟨-, -, config, worker, before, hrun⟩ := h.found b hb
  constructor
  case current => exact h.current
  case found =>
    intro b'' hb''
    obtain rfl := Option.some.inj (hset.symm.trans hb'')
    refine ⟨hbroker, rfl, config, worker, before ++ moves, ?_⟩
    rw [Traffic.run_append, ← hrun, hx']
  case absent => exact fun hnone => absurd (hset.symm.trans hnone) (by simp)
  case fresh =>
    intro t task ht
    by_contra hserial
    rw [htasks t (Or.inr (Nat.not_lt.mp hserial))] at ht
    exact hserial (h.fresh t task ht)
  case others =>
    intro j task hj htask
    obtain ⟨ts, hholds, hown⟩ := h.others j task hj htask
    refine ⟨ts, hholds.congr ?_ horphans, hown.nodup, hown.own⟩
    intro t ht
    apply htasks
    left
    rintro rfl
    exact hj (congrArg some (hown.own t ht).1)

theorem onward_set {b : Broker Action} (hb : w.brokers[k]? = some b) (b' : Broker Action)
    (moves : List (Move Action)) {x' : Traffic Action} (hx' : moves.foldl Traffic.step x = x') :
    Onward k x w x' { w with brokers := w.brokers.set! k b' } := by
  exact fun _ _ => ⟨⟨b', getElem?_set_self hb b'⟩, moves, hx'.symm⟩

theorem flushed (h : Replays k (some i) x w) {b : Broker Action} (hb : w.brokers[k]? = some b) :
    x.broker.flushed = x.broker := by
  obtain ⟨rfl, houtbox, -⟩ := h.found b hb
  rw [Broker.flushed, ← houtbox]

theorem lawful (h : Replays k (some i) x w) {b : Broker Action} (hb : w.brokers[k]? = some b) :
    x.Lawful := by
  obtain ⟨-, -, config, worker, moves, rfl⟩ := h.found b hb
  exact Traffic.lawful_run config worker moves

/-- The broker has moved with a turn of a ticket that the running task holds. -/
theorem turn (h : Replays k (some i) x w) {b b' : Broker Action} (hb : w.brokers[k]? = some b)
    {t : Ticket} (hown : Owns i w [t]) (turn : Turn Action)
    (hbroker : (x.turn t turn).broker = b'.flushed) {w' : World}
    (hcalm : Calm k { w with brokers := w.brokers.set! k b'.flushed } w') :
    Lands k i [t] x w w' fun x' ts' =>
      ts' = [t] ∧ x'.tasks = (x.turn t turn).tasks ∧ x'.orphans = (x.turn t turn).orphans := by
  obtain ⟨htask, hserial⟩ := hown.own t (List.mem_singleton_self t)
  have howned := (h.lawful hb).owned
  have hrest (u : Ticket) (hu : u ≠ t) : (x.turn t turn).tasks u = x.tasks u :=
    (Traffic.leaves_turn howned hu turn).task
  have hstep : Replays k (some i) (x.turn t turn)
      { w with brokers := w.brokers.set! k b'.flushed } := by
    refine h.foldl hb [.task t turn] rfl hbroker ?_ (Traffic.books_turn howned t turn).2.2
    rintro u hu
    apply hrest
    rintro rfl
    rcases hu with hu | hu
    · exact hu htask
    · exact absurd hserial (Nat.not_lt.mpr hu)
  have hset : Onward k x w (x.turn t turn) { w with brokers := w.brokers.set! k b'.flushed } :=
    onward_set hb b'.flushed [.task t turn] rfl
  obtain ⟨x', hreplays, honward, htasks, horphans⟩ := hstep.calm hcalm
  refine ⟨x', [t], ⟨hreplays, hset.trans honward, hcalm.serial, ?_⟩, ⟨rfl, htasks, horphans⟩,
    hown.mono hcalm.serial, fun _ ht => Or.inl ht⟩
  intro u hu _
  rw [htasks]
  exact hrest u fun heq => hu (List.mem_singleton.mpr heq)

/-- A task is added that holds no ticket yet. -/
theorem spawn (h : Replays k (some i) x w) {running : Running} (hholds : running.Holds k x []) :
    Replays k (some i) x ((Sim.spawn running).run w).2 where
  current := h.current
  found := h.found
  absent := h.absent
  fresh := h.fresh
  others := by
    intro j task hj htask
    have hpush : (w.tasks.push { running, isQueued := true })[j]? = some task := htask
    rw [Array.getElem?_push] at hpush
    split at hpush
    · cases hpush
      exact ⟨[], hholds, .nil _ _⟩
    · obtain ⟨ts, hholds', hown⟩ := h.others j task hj hpush
      exact ⟨ts, hholds', hown.nodup, hown.own⟩

end Replays

namespace Sim

variable {α : Type}

/-- An action at a broker changes that broker, and the rest is calm. -/
theorem onBroker_found {b : Broker Action} (hb : w.brokers[k]? = some b)
    (act : Broker Action → Broker Action × α) :
    ((onBroker k act).run w).1 = (act b).2 ∧
      Calm k { w with brokers := w.brokers.set! k (act b).1.flushed }
        ((onBroker k act).run w).2 := by
  have hget : (get : Sim World).run w = (w, w) := rfl
  rw [onBroker, run_bind, hget]
  simp only [hb]
  refine ⟨rfl, ?_⟩
  exact (calms_writeAll (act b).1.outbox.records _).trans (calms_wakeAll _ _)

theorem onBroker_absent (hb : w.brokers[k]? = none)
    (act : Broker Action → Broker Action × α) :
    (onBroker k act).run w = ((act noBroker).2, w) := by
  have hget : (get : Sim World).run w = (w, w) := rfl
  rw [onBroker, run_bind, hget]
  simp only [hb]
  rfl

/-- What a task does at the broker is a turn of a ticket that it holds; what it does at
another one is no concern of the traffic. -/
theorem plays_onBroker {j : Nat} {act : Broker Action → Broker Action × α} {P : Held}
    {Q : α → Held}
    (hfound : j = k → ∀ (x : Traffic Action) ts, x.Lawful → x.broker.flushed = x.broker →
      P x ts → ∃ t turn, ts = [t] ∧ (x.turn t turn).broker = (act x.broker).1.flushed ∧
        ∀ x' : Traffic Action, x'.tasks = (x.turn t turn).tasks →
          x'.orphans = (x.turn t turn).orphans → Q (act x.broker).2 x' [t])
    (habsent : j = k → ∀ (x : Traffic Action) ts, P x ts → (∀ t, x.tasks t = none) →
      Q (act noBroker).2 x ts)
    (hother : j ≠ k → ∀ v x, Q v x []) : Plays k i P (onBroker j act) Q := by
  intro x ts w h hP hown
  by_cases hj : j = k
  · subst hj
    cases hb : w.brokers[j]? with
    | none =>
        rw [onBroker_absent hb]
        exact h.lands (habsent rfl x ts hP (h.absent hb).1) hown
    | some b =>
        have hlawful := h.lawful hb
        have hflushed := h.flushed hb
        obtain ⟨rfl, -⟩ := h.found b hb
        obtain ⟨t, turn, rfl, hbroker, hQ⟩ := hfound rfl x ts hlawful hflushed hP
        obtain ⟨hvalue, hcalm⟩ := onBroker_found hb act
        rw [hvalue]
        exact (h.turn hb hown turn hbroker hcalm).mono fun x' ts' ⟨hts', htasks, horphans⟩ =>
          ⟨ts', .refl _, hts' ▸ hQ x' htasks horphans⟩
  · have hcalm := calms_onBroker (k := k) hj act w
    obtain ⟨x', hreplays, honward, htasks, -⟩ := h.calm hcalm
    exact ⟨x', [], ⟨hreplays, honward, hcalm.serial, fun t _ _ => congrFun htasks t⟩,
      hother hj _ x',
      .nil i _, by simp⟩

/-- What happens at the broker concerns no ticket. -/
theorem plays_onBroker_ticketless {j : Nat} {act : Broker Action → Broker Action × α} {P : Held}
    (hfound : ∀ x : Traffic Action, x.broker.flushed = x.broker →
      ∃ (moves : List (Move Action)) (x' : Traffic Action), moves.foldl Traffic.step x = x' ∧
        x'.broker = (act x.broker).1.flushed ∧ x'.tasks = x.tasks ∧ x'.orphans = x.orphans)
    (hP : P.Local) : Plays k i P (onBroker j act) fun _ => P := by
  by_cases hj : j = k
  · subst hj
    intro x ts w h hts hown
    cases hb : w.brokers[j]? with
    | none =>
        rw [onBroker_absent hb]
        exact h.lands hts hown
    | some b =>
        have hflushed := h.flushed hb
        obtain ⟨rfl, -⟩ := h.found b hb
        obtain ⟨moves, x', hmoves, hbroker, htasks, horphans⟩ := hfound x hflushed
        obtain ⟨-, hcalm⟩ := onBroker_found hb act
        have hstep : Replays j (some i) x'
            { w with brokers := w.brokers.set! j (act x.broker).1.flushed } :=
          h.foldl hb moves hmoves hbroker (fun t _ => congrFun htasks t)
            (by rw [horphans]; exact List.Subset.refl _)
        have hset : Onward j x w x'
            { w with brokers := w.brokers.set! j (act x.broker).1.flushed } :=
          Replays.onward_set hb _ moves hmoves
        obtain ⟨x'', hreplays, honward, htasks', -⟩ := hstep.calm hcalm
        have hkept : x''.tasks = x.tasks := htasks'.trans htasks
        exact ⟨x'', ts, ⟨hreplays, hset.trans honward, hcalm.serial, fun t _ _ => congrFun hkept t⟩,
          hP hts fun t _ => congrFun hkept t, hown.mono hcalm.serial, fun _ ht => Or.inl ht⟩
  · exact .calm (calms_onBroker hj act) hP

/-- A slot that was given up gets a task that discards it. -/
theorem plays_discardLater {j : Nat} (orphan : Option ServiceId) {P : Held} (hP : P.Local) :
    Plays k i (fun x ts => P x ts ∧ (j = k → ∀ id ∈ orphan, id ∈ x.orphans))
      (discardLater j orphan) fun _ => P := by
  by_cases hj : j = k
  · rintro x ts w h ⟨hts, horphan⟩ hown
    cases orphan with
    | none => exact h.lands hts hown
    | some id =>
        have hposts : (Running.unit (.begin (.discard j id))).Holds k x [] := by
          subst hj
          exact Or.inr (.begin id (horphan rfl id rfl))
        exact ⟨x, ts, ⟨h.spawn hposts, .of_eq rfl, Nat.le_refl _, fun _ _ _ => rfl⟩, hts,
          ⟨hown.nodup, hown.own⟩, fun _ ht => Or.inl ht⟩
  · exact (Plays.calm (calms_discardLater hj orphan) hP).weaken fun _ _ h => h.1

end Sim

end EventHub.Simulation
