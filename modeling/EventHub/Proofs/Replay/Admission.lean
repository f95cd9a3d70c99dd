import EventHub.Proofs.Replay.Isolation
import EventHub.Proofs.Traffic.Later

/-!
Admission. A registration that runs to its end is admitted if its setup went well, has
failed if the setup failed, and is told of a closed broker otherwise; it is never told
that its service is unknown. A service is visible with all that it subscribed during its
setup, or not at all.
-/

namespace EventHub

open EventHub.Script EventHub.Simulation

namespace Traffic

variable {L : Type}

/-- How a registration that has run to its end came out. -/
inductive Concludes (config : Config) (worker : Ticket) (moves : List (Move L)) (t : Ticket)
    (name : String) : Except BrokerError Handle → Prop where
  /-- The setup went well, and the registry applied the confirmation. -/
  | admitted (handle : Handle) (hname : handle.name = name)
      (hsetUp : Only (SetUp config worker moves t) handle none)
      (hissued : Issued (run config worker moves).served t handle)
      (hconfirmed : Answered (run config worker moves).served t (.confirm handle.id handle.name)
        [⟨.reserve handle.name, true⟩] (.settled (.ok ()))) :
      Concludes config worker moves t name (.ok handle)
  /-- The setup failed, or it panicked. -/
  | failed (handle : Handle) (reason : String) (hname : handle.name = name)
      (hsetUp : Only (SetUp config worker moves t) handle (some reason)) :
      Concludes config worker moves t name (.error (.initializationFailed name reason))
  /-- The broker was closed, and no setup had failed. -/
  | closed (hclosed : (run config worker moves).broker.isClosed = true)
      (hsetUp : ∀ handle failure, SetUp config worker moves t handle failure → failure = none) :
      Concludes config worker moves t name (.error .closed)

/-- What holds of registrations after these moves, whatever they are. -/
structure Decided (config : Config) (worker : Ticket) (moves : List (Move L)) : Prop where
  concludes : ∀ t name result isGivenUp,
    (run config worker moves).tasks t = some ⟨.registered name result, isGivenUp⟩ →
    Concludes config worker moves t name result
  /-- Nothing of a service whose registration has failed is ever visible. -/
  invisible : ∀ t name e isGivenUp handle,
    (run config worker moves).tasks t = some ⟨.registered name (.error e), isGivenUp⟩ →
    Issued (run config worker moves).served t handle →
    ∀ later before after, (run config worker (moves ++ later)).served = before ++ after →
      ¬ (Served.books before).Shows handle.id
  /-- Once anything of a service is visible, the service is, once, and with it all that was
  subscribed for it before it was confirmed. -/
  whole : ∀ t handle before after, Issued (run config worker moves).served t handle →
    (run config worker moves).served = before ++ after →
    (Served.books before).Shows handle.id →
    ∀ middle rest, after = middle ++ rest →
      (Served.books (before ++ middle)).ShowsAll handle
        ((History.of (before.map Served.request)).made handle.id)

section Decided

variable {x : Traffic L} {ended : Ticket → Handle → Option String → Prop} {t : Ticket}
  {handle : Handle}

theorem Stands.concludes {config : Config} {worker : Ticket} {moves : List (Move L)}
    {name : String} {result : Except BrokerError Handle} {isGivenUp : Bool}
    (h : (run config worker moves).Stands t (SetUp config worker moves t)
      ⟨.registered name result, isGivenUp⟩) : Concludes config worker moves t name result := by
  cases h with
  | other _ _ hplain => exact hplain.elim
  | admitted handle howns hidle hanswered hended =>
      exact .admitted handle rfl hended howns.issued hanswered
  | failed handle reason hreserved hended => exact .failed handle reason rfl hended
  | refused _ hidle hpast hended hclosed =>
      exact .closed hclosed fun handle failure hset => absurd hset (hended handle failure)
  | unconfirmed handle hreserved hended hclosed =>
      exact .closed hclosed fun h failure hset => ((hended h failure).mp hset).2

/-- Nobody confirms the slot of a registration that has failed. -/
theorem Orderly.not_admitted (h : x.Orderly ended) {name : String} {e : BrokerError}
    {isGivenUp : Bool} (htask : x.tasks t = some ⟨.registered name (.error e), isGivenUp⟩)
    (hissued : Issued x.served t handle) (owner : Handle) :
    Served.stage x.served handle.id ≠ .admitted owner := by
  intro hadmitted
  obtain ⟨q, hmem, confirmed, hconfirm⟩ := History.confirmed_of_admitted _ hadmitted
  obtain ⟨s, hs, rfl⟩ := List.mem_map.mp hmem
  obtain ⟨caller, command, waits⟩ := s
  obtain rfl : command = .confirm handle.id confirmed := hconfirm
  obtain ⟨u, hcaller, hissued'⟩ := h.founded ⟨.confirm handle.id confirmed, caller⟩
    (List.mem_append_left _ (List.mem_map.mpr ⟨_, hs, rfl⟩))
  obtain ⟨rfl, -⟩ := hissued.unique hissued' rfl
  -- its owner has asked for nothing but the slot
  have hasked := Served.mem_requestsOf hs hcaller
  have hreserved {own : Handle} (hpast : Served.requestsOf x.served t =
      [⟨.reserve own.name, true⟩]) : False := by
    rw [hpast] at hasked
    simp at hasked
  cases h.stands t _ htask with
  | other _ _ hplain => exact hplain
  | failed own reason hown => exact hreserved hown.past
  | refused _ _ hpast =>
      rw [hpast] at hasked
      cases hasked
  | unconfirmed own hown => exact hreserved hown.past

end Decided

section Later

variable (config : Config) (worker : Ticket) (moves : List (Move L))

/-- Who was admitted among the first commands is admitted. -/
theorem admitted_later {served before after : List (Served L)} (hserved : served = before ++ after)
    {id : ServiceId} {owner : Handle}
    (hstage : (History.of (before.map Served.request)).stage id = .admitted owner) :
    Served.stage served id = .admitted owner := by
  have hfinal : ((History.of (before.map Served.request)).stage id).IsFinal := by
    rw [hstage]
    trivial
  rw [hserved, Served.stage_append,
    (History.sound_of (before.map Served.request)).stage_foldl hfinal, hstage]

theorem decided_run : Decided config worker moves := by
  refine ⟨?concludes, ?invisible, ?whole⟩
  case concludes =>
    intro t name result isGivenUp htask
    exact ((orderly_run config worker moves).stands t _ htask).concludes
  case invisible =>
    intro t name e isGivenUp handle htask hissued later before after hserved hshows
    have htask' := registered_later config worker moves htask later
    obtain ⟨more, hmore⟩ := served_later config worker moves later
    have hissued' := hissued.append more
    rw [hmore] at hissued'
    obtain ⟨owner, hstage⟩ := ((Agrees.of_run (before.map Served.request)).shows_iff
      (History.sound_of _) handle.id).mp hshows
    exact (orderly_run config worker (moves ++ later)).not_admitted htask' hissued' owner
      (admitted_later hserved hstage)
  case whole =>
    intro t handle before after hissued hserved hshows middle rest hafter
    obtain ⟨owner, hstage, hall⟩ := Registry.shows_all hshows (middle.map Served.request)
    obtain rfl := hissued.admitted (admitted_later hserved hstage)
    rw [← List.map_append] at hall
    exact hall

end Later

end Traffic

open Traffic in
/-- Registering is atomic. Whatever the interleaving, every registration that has come to
its end has come out as its setup and the registry decided; what has failed is never
visible, and what is visible is visible as a whole. So it is at every broker of every
world. -/
theorem atomic_admission :
    (∀ (L : Type) (config : Config) (worker : Ticket) (moves : List (Move L)),
      Decided config worker moves) ∧
    ∀ (s : Scenario) (w : World), Scenario.Leads s.start w →
      ∀ (k : Nat) (b : Broker Action), w.brokers[k]? = some b →
        ∃ config worker moves, (Traffic.run config worker moves).broker = b ∧
          Mirrors k (Traffic.run config worker moves) w ∧ Decided config worker moves ∧
          ∀ w', Scenario.Leads w w' →
            ∃ later, Mirrors k (Traffic.run config worker (moves ++ later)) w' ∧
              Decided config worker (moves ++ later) := by
  refine ⟨fun _ => decided_run, ?_⟩
  intro s w hleads k b hb
  obtain ⟨config, worker, moves, hbroker, hmirrors, honward⟩ := hleads.mirrored hb
  refine ⟨config, worker, moves, hbroker, hmirrors, decided_run config worker moves, ?_⟩
  intro w' hleads'
  obtain ⟨later, hmirrors'⟩ := honward w' hleads'
  exact ⟨later, hmirrors', decided_run config worker _⟩

namespace Traffic

/-- One service is admitted, the setup of another fails, and a third one comes too
late. -/
def registrations : List (Move Nat) :=
  beforeFiring ++
  .task ⟨2, 0⟩ (.begin (.register "search")) :: answered ⟨2, 0⟩ ++
  [.task ⟨2, 0⟩ (.setUpEnded (.returned (.error (.setup "no index")))), .task ⟨2, 0⟩ .goOn,
    .work] ++
  [.close, .task ⟨3, 0⟩ (.begin (.register "late"))]

/-- What the registry takes of that. -/
def registrationsTaken : List (Served Nat) :=
  [⟨some ⟨1, 0⟩, ⟨.reserve "index", true⟩⟩,
    ⟨some ⟨1, 1⟩, ⟨.subscribe ⟨⟨1⟩, "index"⟩ ⟨.applicationStartup, 1⟩, true⟩⟩,
    ⟨some ⟨1, 0⟩, ⟨.confirm ⟨1⟩ "index", true⟩⟩,
    ⟨some ⟨2, 0⟩, ⟨.reserve "search", true⟩⟩,
    ⟨none, ⟨.discard ⟨2⟩, false⟩⟩]

end Traffic

open Traffic in
/-- The three come out as they should; of the second nothing is ever visible, and of the
first its listener is from the moment that it is listed. In a world with a service the
same holds at its broker. -/
theorem atomic_admission_three :
    let x := Traffic.run {} ⟨0, 0⟩ registrations
    x.tasks ⟨1, 0⟩ = some ⟨.registered "index" (.ok ⟨⟨1⟩, "index"⟩), false⟩ ∧
    Concludes {} ⟨0, 0⟩ registrations ⟨1, 0⟩ "index" (.ok ⟨⟨1⟩, "index"⟩) ∧
    Concludes {} ⟨0, 0⟩ registrations ⟨2, 0⟩ "search"
      (.error (.initializationFailed "search" (ServiceError.setup "no index").message)) ∧
    Concludes {} ⟨0, 0⟩ registrations ⟨3, 0⟩ "late" (.error .closed) ∧
    x.served = registrationsTaken ∧ ¬ (Served.books registrationsTaken).Shows ⟨2⟩ ∧
    (Served.books registrationsTaken).ShowsAll ⟨⟨1⟩, "index"⟩
      [⟨⟨⟨1⟩, "index"⟩, .applicationStartup, ⟨.applicationStartup, 1⟩⟩] ∧
    ∃ config worker moves, Mirrors 0 (Traffic.run config worker moves) Scenario.indexing ∧
      Decided config worker moves := by
  have hdecided := atomic_admission.1 Nat {} ⟨0, 0⟩ registrations
  have hserved : (Traffic.run {} ⟨0, 0⟩ registrations).served = registrationsTaken := rfl
  have hfirst : Issued (Traffic.run {} ⟨0, 0⟩ registrations).served ⟨1, 0⟩ ⟨⟨1⟩, "index"⟩ :=
    ⟨[], registrationsTaken.drop 1, hserved, rfl⟩
  have hsecond : Issued (Traffic.run {} ⟨0, 0⟩ registrations).served ⟨2, 0⟩ ⟨⟨2⟩, "search"⟩ :=
    ⟨registrationsTaken.take 3, registrationsTaken.drop 4, hserved, rfl⟩
  have hsplit : (Traffic.run {} ⟨0, 0⟩ registrations).served = registrationsTaken ++ [] := hserved
  have hshows : (Served.books registrationsTaken).Shows ⟨1⟩ :=
    Or.inl ⟨⟨⟨1⟩, "index"⟩, by decide, rfl⟩
  obtain ⟨config, worker, moves, -, -, -, honward⟩ := atomic_admission.2 {} _ .refl 0 _ rfl
  have hleads : Scenario.Leads (Scenario.start {}) Scenario.indexing :=
    (Scenario.Leads.refl.runStep none Scenario.registersIndex).runStep none _
  obtain ⟨later, hmirrors, hdecided'⟩ := honward _ hleads
  refine ⟨rfl, hdecided.concludes _ _ _ false rfl, hdecided.concludes _ _ _ false rfl,
    hdecided.concludes _ _ _ false rfl, hserved, ?invisible, ?whole,
    config, worker, moves ++ later, hmirrors, hdecided'⟩
  case invisible => exact hdecided.invisible ⟨2, 0⟩ "search" _ false _ rfl hsecond [] _ [] hsplit
  case whole => exact hdecided.whole ⟨1, 0⟩ _ _ [] hfirst hsplit hshows [] [] rfl

end EventHub
