import EventHub.Proofs.Replay.Admission

/-!
Abandoned registrations. Wherever a registration is given up, its slot is discarded, but for
one place: when the registry has answered the request for the slot and the registration has
not gone on yet. Nobody knows of that slot then, and it stays pending for good.
-/

namespace EventHub

open EventHub.Script EventHub.Simulation

namespace Traffic

variable {L : Type}

/-- The registration was given up while it waited for its slot. -/
def LeftUnheard (x : Traffic L) (t : Ticket) : Prop :=
  ∃ name, x.tasks t = some ⟨.registering name (.reserving name (.awaiting t)), true⟩

/-- Nothing is under way at an open broker: its mailbox is empty, and every discard that was
left to a task of its own has been posted. -/
structure Settled (x : Traffic L) : Prop where
  isOpen : x.broker.isClosed = false
  queue : x.broker.mailbox.queue = []
  orphans : ∀ id ∈ x.orphans, ∃ t, x.tasks t = some ⟨.discarded id, false⟩

/-- Every slot that is pending then belongs to a registration that is still under way, or
to one that was given up before it heard of the slot; and the slot of such a one is
pending. -/
structure Abandoned (x : Traffic L) : Prop where
  owned : x.Settled → ∀ entry ∈ x.broker.registry.pending,
    ∃ t, Issued x.served t entry.2.handle ∧
      ((∃ name stage, x.tasks t = some ⟨.registering name stage, false⟩) ∨ x.LeftUnheard t)
  unheard : ∀ t handle, x.LeftUnheard t → Issued x.served t handle →
    ∃ entry ∈ x.broker.registry.pending, entry.2.handle = handle

namespace Orderly

variable {x : Traffic L} {ended : Ticket → Handle → Option String → Prop} {t : Ticket}
  {handle : Handle}

/-- A discard that was posted has been taken when the mailbox is empty. -/
theorem final_of_posted (h : x.Orderly ended) (hqueue : x.broker.mailbox.queue = [])
    {id : ServiceId} (hposted : ∃ e ∈ x.posted, e.command = .discard id) :
    (Served.stage x.served id).IsFinal := by
  obtain ⟨e, hmem, he⟩ := hposted
  rw [posted, hqueue, List.append_nil] at hmem
  obtain ⟨s, hs, rfl⟩ := List.mem_map.mp hmem
  exact h.discarded s hs id he

theorem final_of_disputed (h : x.Orderly ended) (hsettled : x.Settled) {id : ServiceId}
    (hdisputed : x.broker.isClosed = false → x.Disputed id) :
    (Served.stage x.served id).IsFinal := by
  rcases hdisputed hsettled.isOpen with hposted | horphan
  · exact h.final_of_posted hsettled.queue hposted
  · obtain ⟨t, htask⟩ := hsettled.orphans id horphan
    cases h.stands t _ htask with
    | other _ _ hplain => exact hplain.elim
    | posted _ hasks hposted => exact h.final_of_posted hsettled.queue (hposted hsettled.isOpen)

/-- Whoever was handed a slot had asked for it. -/
theorem reserve_mem (hissued : Issued x.served t handle) :
    ⟨.reserve handle.name, true⟩ ∈ Served.requestsOf x.served t :=
  Served.mem_requestsOf hissued.mem rfl

theorem not_asked {commands : Command L → Prop} (hissued : Issued x.served t handle)
    (hasks : x.Asks t commands) (hreserve : ¬ commands (.reserve handle.name)) : False :=
  hreserve (hasks.served _ (reserve_mem hissued))

/-- The owner of a slot that is pending is still under way, or has left without hearing
of it. -/
theorem owner_of_pending (h : x.Orderly ended) (hsettled : x.Settled)
    (hissued : Issued x.served t handle)
    (hpending : Served.stage x.served handle.id = .pending handle) :
    (∃ name stage, x.tasks t = some ⟨.registering name stage, false⟩) ∨ x.LeftUnheard t := by
  have hlast {own : Handle} (hfinal : (Served.stage x.served own.id).IsFinal)
      (hsole : handle = own) : False := by
    rw [← hsole, hpending] at hfinal
    exact hfinal
  cases hfound : x.tasks t with
  | none =>
      have hmem := reserve_mem hissued
      rw [(h.lawful.unused hfound).served] at hmem
      cases hmem
  | some task =>
      cases h.stands t task hfound with
      | other _ _ _ hasks => exact (not_asked hissued hasks id).elim
      | posting _ hasks => exact (not_asked hissued hasks id).elim
      | posted _ hasks => exact (not_asked hissued hasks id).elim
      | reserving | settingUp | discarding | confirming => exact Or.inl ⟨_, _, rfl⟩
      | admitted own howns hidle hanswered =>
          obtain ⟨owner, hadmitted⟩ := hanswered.admitted
          exact (hlast (hadmitted ▸ trivial) (howns.sole handle hissued)).elim
      | failed own reason hreserved _ hdisputed =>
          exact (hlast (h.final_of_disputed hsettled hdisputed)
            (hreserved.sole handle hissued)).elim
      | refused name hidle hpast =>
          have hmem := reserve_mem hissued
          rw [hpast] at hmem
          cases hmem
      | unconfirmed own _ _ hclosed =>
          rw [hsettled.isOpen] at hclosed
          cases hclosed
      | leftEarly name call hasks hticket hmessage =>
          cases call with
          | sending u c =>
              have hmem := reserve_mem hissued
              rw [(hmessage _ rfl).1] at hmem
              cases hmem
          | awaiting u =>
              obtain rfl : u = t := hticket
              exact Or.inr ⟨name, hfound⟩
      | leftLate name own stage howns _ hdisputed =>
          exact (hlast (h.final_of_disputed hsettled hdisputed)
            (howns.sole handle hissued)).elim

/-- Nobody ever decides about a slot whose owner has left without hearing of it. -/
theorem undecided_of_unheard (h : x.Orderly ended) (hunheard : x.LeftUnheard t)
    (hissued : Issued x.served t handle) :
    ∀ s ∈ x.served, ¬ s.request.Decides handle.id := by
  obtain ⟨name, htask⟩ := hunheard
  have hstays : ¬ x.Forsakes t := by
    rintro (⟨n, e, hfound⟩ | ⟨n, stage, hfound, hstage⟩)
    · simp [htask] at hfound
    · obtain ⟨rfl, rfl⟩ : name = n ∧ .reserving name (.awaiting t) = stage := by
        simpa [htask] using hfound
      exact hstage rfl
  intro s hmem hdecides
  have hmem' := Served.mem_requestsOf hmem (h.decided hissued hstays s hmem hdecides)
  cases h.stands t _ htask with
  | other _ _ hplain => exact hplain
  | leftEarly _ _ hasks =>
      -- it has asked for the slot and for nothing else
      have hreserve := hasks.served _ hmem'
      rw [Request.Decides, hreserve] at hdecides
      exact hdecides
  | leftLate _ _ _ _ hstage => cases hstage

theorem abandoned (h : x.Orderly ended) : x.Abandoned := by
  have hagrees := Agrees.of_run (x.served.map Served.request)
  have hs := History.sound_of (x.served.map Served.request)
  have hbooks : x.broker.registry = Registry.run {} (x.served.map Served.request) := h.lawful.books
  rw [← hbooks] at hagrees
  refine ⟨?owned, ?unheard⟩
  case owned =>
    intro hsettled entry hmem
    obtain ⟨owner, hpending, hentry⟩ := hagrees.pending_entry hmem
    obtain ⟨t, hissued⟩ := Served.issued_of_pending h.waits hpending
    have hid := hs.pending_id _ owner hpending
    rw [← hid] at hpending
    rw [hentry]
    exact ⟨t, hissued, h.owner_of_pending hsettled hissued hpending⟩
  case unheard =>
    intro t handle hunheard hissued
    have hpending := hissued.pending (h.undecided_of_unheard hunheard hissued)
    have hlookup := hagrees.lookup_pending handle.id
    rw [History.slot?_of_pending hpending] at hlookup
    obtain ⟨first, rest, hsplit, -⟩ := List.lookup_eq_some_iff.mp hlookup
    let entry : Pending L :=
      { handle, subscriptions := (History.of (x.served.map Served.request)).made handle.id }
    have hmem : (handle.id, entry) ∈ x.broker.registry.pending := by
      rw [hsplit]
      simp [entry]
    exact ⟨_, hmem, rfl⟩

end Orderly

end Traffic

open Traffic in
/-- No other slot is left behind than that of a registration that was given up when the
registry had answered it and before it heard of that, whatever the interleaving; so it is
at every broker of every world. -/
theorem abandoned_registrations {L : Type} (config : Config) (worker : Ticket)
    (moves : List (Move L)) :
    (Traffic.run config worker moves).Abandoned ∧
    ∀ (s : Scenario) (w : World), Scenario.Leads s.start w →
      ∀ (k : Nat) (b : Broker Action), w.brokers[k]? = some b →
        ∃ config worker moves, (Traffic.run config worker moves).broker = b ∧
          Mirrors k (Traffic.run config worker moves) w ∧
          (Traffic.run config worker moves).Abandoned ∧
          ∀ w', Scenario.Leads w w' →
            ∃ later, Mirrors k (Traffic.run config worker (moves ++ later)) w' ∧
              (Traffic.run config worker (moves ++ later)).Abandoned := by
  have habandoned (L : Type) (config : Config) (worker : Ticket) (moves : List (Move L)) :
      (Traffic.run config worker moves).Abandoned := (orderly_run config worker moves).abandoned
  refine ⟨habandoned L config worker moves, ?_⟩
  intro s w hleads k b hb
  obtain ⟨config, worker, moves, hbroker, hmirrors, honward⟩ := hleads.mirrored hb
  refine ⟨config, worker, moves, hbroker, hmirrors, habandoned _ _ _ _, ?_⟩
  intro w' hleads'
  obtain ⟨later, hmirrors'⟩ := honward w' hleads'
  exact ⟨later, hmirrors', habandoned _ _ _ _⟩

namespace Traffic

/-- One registration sets its service up, another is given up while it does, and a third
one before it hears of its slot. -/
def givenUp : List (Move Nat) :=
  .task ⟨1, 0⟩ (.begin (.register "index")) :: answered ⟨1, 0⟩ ++
  .task ⟨2, 0⟩ (.begin (.register "search")) :: answered ⟨2, 0⟩ ++
  [.task ⟨2, 0⟩ .giveUp, .work] ++
  [.task ⟨3, 0⟩ (.begin (.register "late")), .task ⟨3, 0⟩ .goOn, .work, .task ⟨3, 0⟩ .giveUp]

end Traffic

open Traffic in
/-- The slots of the first and of the third stay pending. -/
theorem abandoned_registrations_three :
    let x := Traffic.run {} ⟨0, 0⟩ givenUp
    x.Settled ∧ x.broker.registry.pending.map (·.1) = [⟨1⟩, ⟨3⟩] ∧ x.LeftUnheard ⟨3, 0⟩ ∧
    (∀ entry ∈ x.broker.registry.pending,
      ∃ t, Issued x.served t entry.2.handle ∧
        ((∃ name stage, x.tasks t = some ⟨.registering name stage, false⟩) ∨ x.LeftUnheard t)) ∧
    (∃ entry ∈ x.broker.registry.pending, entry.2.handle = ⟨⟨3⟩, "late"⟩) ∧
    ∃ config worker moves, Mirrors 0 (Traffic.run config worker moves) (Scenario.start {}) := by
  obtain ⟨habandoned, hworlds⟩ := abandoned_registrations {} ⟨0, 0⟩ givenUp
  have hsettled : (Traffic.run {} ⟨0, 0⟩ givenUp).Settled := by
    refine ⟨rfl, rfl, ?_⟩
    have hnone : (Traffic.run {} ⟨0, 0⟩ givenUp).orphans = [] := rfl
    simp [hnone]
  have hunheard : (Traffic.run {} ⟨0, 0⟩ givenUp).LeftUnheard ⟨3, 0⟩ := ⟨"late", rfl⟩
  have hissued : Issued (Traffic.run {} ⟨0, 0⟩ givenUp).served ⟨3, 0⟩ ⟨⟨3⟩, "late"⟩ :=
    ⟨[⟨some ⟨1, 0⟩, ⟨.reserve "index", true⟩⟩, ⟨some ⟨2, 0⟩, ⟨.reserve "search", true⟩⟩,
      ⟨none, ⟨.discard ⟨2⟩, false⟩⟩], [], rfl, rfl⟩
  obtain ⟨config, worker, moves, -, hmirrors, -⟩ := hworlds {} _ .refl 0 _ rfl
  exact ⟨hsettled, rfl, hunheard, habandoned.owned hsettled,
    habandoned.unheard _ _ hunheard hissued, config, worker, moves, hmirrors⟩

namespace Scenario

/-- A registration is given up by a task that runs between the registry's answer and the
registration's next turn. -/
def abandonsUnheard : Step :=
  .control (.all
    [.control (.spawn (some "other") [.broker 0 .services, .control (.abort "registers")]),
      .control (.spawn (some "registers")
        [.broker 0 (.register (.scripted "index" [] .done none) none)]),
      .control (.join "other")])

/-- The world after that. -/
def abandonedUnheard : World := ((runStep none abandonsUnheard).run (start {})).2

/-- The tasks that have not come to their end. -/
def underWay (w : World) : List Nat :=
  w.tasks.toList.zipIdx.filterMap fun (task, j) =>
    match task.running with
    | .finished => none
    | _ => some j

end Scenario

/-- The broker is open and its mailbox is empty, nothing is under way but its registry, and
yet a slot is pending. -/
theorem abandoned_slot_stays :
    (Scenario.abandonedUnheard.brokers[0]?.map fun b =>
      (b.isClosed, b.mailbox.queue.length, b.worker.task, b.registry.pending.map (·.1))) =
        some (false, 0, 1, [⟨1⟩]) ∧
    Scenario.underWay Scenario.abandonedUnheard = [1] := by
  decide +kernel

end EventHub
