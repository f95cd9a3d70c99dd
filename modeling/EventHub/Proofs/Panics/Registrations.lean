import EventHub.Proofs.Panics.Runs
import EventHub.Proofs.Replay.Acts

/-!
Registrations whose service breaks off. A registration asks for a slot and then runs the
setup of its service in a frame that takes whatever becomes of it. If that has failed, it
ends with the reason once the slot is given back, and by no other result. What the frame does
not take is a setup that breaks off when it is called: the registration breaks off with it.
-/

namespace EventHub

namespace Registration

variable {L : Type} {name : String}

/-- A registration that has no slot yet asks on, is given one, or finds the broker closed. -/
inductive Next.IsReserving (name : String) : Next L → Prop where
  | asking (call : Call L) : IsReserving name (.suspended (.reserving name call))
  | given (t : Ticket) (handle : Handle) : IsReserving name (.setUp t handle)
  | closed : IsReserving name (.finished (.error .closed))

/-- A registration whose setup has ended comes to one of these results. -/
inductive Next.IsDeciding : (Except BrokerError Handle → Prop) → Next L → Prop where
  | confirming (handle : Handle) (call : Call L) :
      IsDeciding (fun _ => True) (.suspended (.confirming handle call))
  | discarding (t : Ticket) (handle : Handle) (reason : String) :
      IsDeciding (· = .error (.initializationFailed handle.name reason))
        (.suspended (.discarding t handle reason))
  | finished {results : Except BrokerError Handle → Prop} (result : Except BrokerError Handle)
      (h : results result) : IsDeciding results (.finished result)

theorem isReserving_reserved (t : Ticket) {p : Broker L × Called L}
    (hp : ∀ e, p.2 = .finished (.error e) → e = .closed) :
    (reserved name t p).next.IsReserving name := by
  obtain ⟨b, called⟩ := p
  cases called with
  | suspended call => exact .asking call
  | finished result =>
      cases result with
      | error e =>
          obtain rfl := hp e rfl
          exact .closed
      | ok answer =>
          cases answer with
          | reserved handle => exact .given t handle
          | _ => exact .closed

theorem isDeciding_confirmed (handle : Handle) (p : Broker L × Called L) :
    (confirmed handle p).next.IsDeciding fun _ => True := by
  obtain ⟨b, called⟩ := p
  cases called with
  | suspended call => exact .confirming handle call
  | finished result =>
      cases result with
      | error e => exact .finished _ trivial
      | ok answer =>
          cases answer with
          | settled decision => cases decision <;> exact .finished _ trivial
          | _ => exact .finished _ trivial

theorem isDeciding_discarded (t : Ticket) (handle : Handle) (reason : String)
    (p : Broker L × Mailbox.Posted) :
    (discarded t handle reason p).next.IsDeciding
      (· = .error (.initializationFailed handle.name reason)) := by
  obtain ⟨b, posted⟩ := p
  cases posted with
  | waits => exact .discarding t handle reason
  | accepted => exact .finished _ rfl
  | refused => exact .finished _ rfl

end Registration

namespace Simulation

variable {broker : Nat} {service : Service} {turns : List (World × World)}

/-- What a registration goes on with. -/
def registered (broker : Nat) (ticket : Ticket) (service : Service) :
    Registration.Next Action → Future .handle
  | .suspended stage => .wait (.registration broker ticket service stage)
  | .setUp t handle =>
    .bind (.begin (.setUp broker handle service)) (.settingUp broker t handle service)
  | .finished result => .value result

/-- A registration whose service was not called yet. -/
inductive Reserving (broker : Nat) (service : Service) : Future .handle → Prop where
  | begin : Reserving broker service (.begin (.register broker service))
  | asking (t : Ticket) (name : String) (call : EventHub.Call Action) :
      Reserving broker service (.wait (.registration broker t service (.reserving name call)))
  | closed : Reserving broker service (.value (.error .closed))

/-- The service is about to be called. -/
inductive CallsSetUp (broker : Nat) (service : Service) : Future .handle → Prop where
  | given (t : Ticket) (handle : Handle) : CallsSetUp broker service
      (.bind (.begin (.setUp broker handle service)) (.settingUp broker t handle service))

namespace Sim

/-- Acting on a broker, as seen by the one who acts. -/
theorem onBroker_fst {α : Type} (index : Nat) (act : Broker Action → Broker Action × α)
    (w : World) : ((onBroker index act).run w).1 = (act (w.brokers[index]?.getD noBroker)).2 := by
  cases hb : w.brokers[index]? with
  | none =>
      rw [onBroker_absent hb]
      rfl
  | some b => exact (onBroker_found hb act).1

theorem registering_fst (t : Ticket) (act : Broker Action → Registration.Result Action)
    (w : World) : ((registering broker t service act).run w).1 =
      registered broker t service (act (w.brokers[broker]?.getD noBroker)).next := by
  have hacted := onBroker_fst broker (fun b => let r := act b; (r.broker, (r.next, r.orphan))) w
  have hnext := congrArg Prod.fst hacted
  have hshape (next : Registration.Next Action) (v : World) :
      ((match next with
        | .suspended stage => return .wait (.registration broker t service stage)
        | .setUp t handle =>
          return .bind (.begin (.setUp broker handle service)) (.settingUp broker t handle service)
        | .finished result => return .value result : Sim (Future .handle)).run v).1 =
      registered broker t service next := by
    cases next <;> rfl
  rw [registering, run_bind]
  exact (hshape _ _).trans (congrArg (registered broker t service) hnext)

/-- Looking at a registration puts it off, or makes it go on. -/
theorem check_registration (broker : Nat) (service : Service) (t : Ticket)
    (stage : Registration Action) (w : World) :
    ((check (.registration broker t service stage)).run w).1 =
        .pending (.registration broker t service stage) ∨
      ((check (.registration broker t service stage)).run w).1 =
        .of (registered broker t service
          (Registration.resume (w.brokers[broker]?.getD noBroker) stage).next) := by
  have hlook :
      ((Polled.of <$> registering broker t service (Registration.resume · stage)).run w).1 =
        .of ((registering broker t service (Registration.resume · stage)).run w).1 := rfl
  rw [registering_fst] at hlook
  rw [check]
  rcases take_run (.registration broker t service stage)
    (Polled.of <$> registering broker t service (Registration.resume · stage)) w with
    ⟨hwait, -⟩ | ⟨hlooked, -⟩
  · exact Or.inl hwait
  · exact Or.inr (hlooked.trans hlook)

theorem reserving_registered (broker : Nat) (service : Service) (t : Ticket) {name : String}
    {next : Registration.Next Action} (h : next.IsReserving name) :
    Reserving broker service (registered broker t service next) ∨
      CallsSetUp broker service (registered broker t service next) := by
  cases h with
  | asking call => exact Or.inl (.asking t name call)
  | given u handle => exact Or.inr (.given u handle)
  | closed => exact Or.inl .closed

/-- Until the service is called, only the broker is asked for a slot. -/
theorem poll_reserving (n : Nat) {f : Future .handle} (h : Reserving broker service f)
    (w : World) : Reserving broker service ((poll n f).run w).1 ∨
      ∃ n' f' w', CallsSetUp broker service f' ∧ (poll n f).run w = (poll n' f').run w' := by
  induction n generalizing f w with
  | zero => exact Or.inl h
  | succ n ih =>
      cases h with
      | closed =>
          rw [poll_value]
          exact Or.inl .closed
      | begin =>
          have hbegin : Sim.begin (.register broker service) = (ticket >>= fun t =>
              registering broker t service (Registration.start · t (serviceName service))) := by
            rw [Sim.begin]
          have hbegun : Reserving broker service
                ((Sim.begin (.register broker service)).run w).1 ∨
              CallsSetUp broker service ((Sim.begin (.register broker service)).run w).1 := by
            rw [hbegin, run_bind, registering_fst]
            exact reserving_registered _ _ _
              (Registration.isReserving_reserved _ fun _ => Broker.error_call)
          rw [poll_begin]
          rcases hbegun with hreserving | hcalls
          · exact ih hreserving _
          · exact Or.inr ⟨n, _, _, hcalls, rfl⟩
      | asking t name call =>
          have hnext (b : Broker Action) :
              (Registration.resume b (.reserving name call)).next.IsReserving name := by
            cases call with
            | sending u c => exact Registration.isReserving_reserved u fun _ => Broker.error_resume
            | awaiting u => exact Registration.isReserving_reserved u fun _ => Broker.error_resume
          have hgoes := reserving_registered broker service t
            (hnext (w.brokers[broker]?.getD noBroker))
          have hchecked := check_registration broker service t (.reserving name call) w
          rw [poll_wait]
          generalize (check (.registration broker t service (.reserving name call))).run w =
            checked at hchecked
          generalize registered broker t service
            (Registration.resume (w.brokers[broker]?.getD noBroker) (.reserving name call)).next =
              g at hgoes hchecked
          obtain ⟨p, w'⟩ := checked
          rcases hchecked with hp | hp
          · obtain rfl : p = _ := hp
            exact Or.inl (.asking t name call)
          · obtain rfl : p = .of g := hp
            rcases hgoes with hreserving | hcalls
            · cases hreserving with
              | begin => exact ih .begin w'
              | asking u name' call' => exact Or.inl (.asking u name' call')
              | closed => exact ih .closed w'
            · cases hcalls with
              | given u handle => exact Or.inr ⟨n, _, w', .given u handle, rfl⟩

end Sim

/-- A registration ends because its broker is closed, or it comes to call the service, and
its last turns are those of what is left then. -/
theorem runs_register {o : Outcome (Except BrokerError Handle)}
    (h : Runs (.begin (.register broker service)) turns o) :
    o = .returned (.error .closed) ∨ ∃ t handle rest,
      Runs (.bind (.begin (.setUp broker handle service)) (.settingUp broker t handle service))
        rest o ∧ rest.map Prod.snd <:+ turns.map Prod.snd := by
  rcases h.reaches (Reserving broker service) (CallsSetUp broker service)
    (fun n _ w hf => Sim.poll_reserving n hf w) .begin with hdone | ⟨f, rest, hf, hruns, hlast⟩
  · cases hdone
    exact Or.inl rfl
  · cases hf with
    | given t handle => exact Or.inr ⟨t, handle, rest, hruns, hlast⟩

/-- A registration whose setup has ended comes to one of these results. -/
def Deciding (broker : Nat) (service : Service) (results : Except BrokerError Handle → Prop)
    (f : Future .handle) : Prop :=
  ∃ (t : Ticket) (next : Registration.Next Action),
    next.IsDeciding results ∧ f = registered broker t service next

namespace Sim

theorem poll_deciding {results : Except BrokerError Handle → Prop} (n : Nat)
    {f : Future .handle} (w : World) (h : Deciding broker service results f) :
    Deciding broker service results ((poll n f).run w).1 := by
  induction n generalizing f w with
  | zero => exact h
  | succ n ih =>
      obtain ⟨t, next, hnext, rfl⟩ := h
      -- A stage that is looked at stays what it is, or becomes what the broker makes of it.
      have hstage (stage : Registration Action)
          (hkeeps : ∀ b, (Registration.resume b stage).next.IsDeciding results)
          (hstage : Deciding broker service results
            (.wait (.registration broker t service stage))) :
          Deciding broker service results
            ((poll (n + 1) (.wait (.registration broker t service stage))).run w).1 := by
        have hgoes := hkeeps (w.brokers[broker]?.getD noBroker)
        have hchecked := check_registration broker service t stage w
        rw [poll_wait]
        generalize (check (.registration broker t service stage)).run w = checked at hchecked
        generalize (Registration.resume (w.brokers[broker]?.getD noBroker) stage).next = next
          at hgoes hchecked
        obtain ⟨p, w'⟩ := checked
        rcases hchecked with hp | hp
        · obtain rfl : p = _ := hp
          exact hstage
        · obtain rfl : p = _ := hp
          have hdeciding : Deciding broker service results (registered broker t service next) :=
            ⟨t, next, hgoes, rfl⟩
          cases next with
          | suspended stage' => exact hdeciding
          | setUp u handle => cases hgoes
          | finished result => exact ih w' hdeciding
      cases hnext with
      | confirming handle call =>
          exact hstage _ (fun b => Registration.isDeciding_confirmed handle _)
            ⟨t, _, .confirming handle call, rfl⟩
      | discarding u handle reason =>
          exact hstage _ (fun b => Registration.isDeciding_discarded u handle reason _)
            ⟨t, _, .discarding u handle reason, rfl⟩
      | finished result hresult =>
          have hvalue : registered broker t service (.finished result) = .value result := rfl
          rw [hvalue, poll_value]
          exact ⟨t, _, .finished result hresult, rfl⟩

/-- A task that may still take something looks at once. -/
theorem take_fst {a : Shape} {wait : Wait a} {look : Sim (Polled a)} {w : World}
    (hheld : w.allowance ≠ some 0) : ((take wait look).run w).1 = (look.run w).1 := by
  have hspent : isSpent.run w = (false, w) := by
    have hfalse : decide (w.allowance = some 0) = false := decide_eq_false hheld
    rw [← hfalse]
    rfl
  rw [take, run_bind, hspent]
  exact taken_run wait _ _

/-- Room for the discard, or a registry that has stopped, ends a registration that failed. -/
theorem poll_discarding (n : Nat) (t u : Ticket) (handle : Handle) (reason : String) {w : World}
    (hheld : w.allowance ≠ some 0)
    (hroom : ((w.brokers[broker]?.getD noBroker).mailbox.send u
      ⟨.discard handle.id, none⟩).2 ≠ .waits) :
    ((poll (n + 1) (.wait (.registration broker t service (.discarding u handle reason)))).run
      w).1 = .value (.error (.initializationFailed handle.name reason)) := by
  have hfinished : (Registration.resume (w.brokers[broker]?.getD noBroker)
      (.discarding u handle reason)).next =
        .finished (.error (.initializationFailed handle.name reason)) := by
    simp only [Registration.resume]
    cases hposted : ((w.brokers[broker]?.getD noBroker).mailbox.send u
        ⟨.discard handle.id, none⟩).2 with
    | waits => exact absurd hposted hroom
    | accepted => rfl
    | refused => rfl
  have hlook : ((Polled.of <$> registering broker t service (Registration.resume ·
      (.discarding u handle reason))).run w).1 =
        .of ((registering broker t service (Registration.resume ·
          (.discarding u handle reason))).run w).1 := rfl
  rw [registering_fst, hfinished] at hlook
  have hchecked : ((check (.registration broker t service (.discarding u handle reason))).run w).1 =
      .next (.value (.error (.initializationFailed handle.name reason))) := by
    rw [check, take_fst hheld]
    exact hlook
  rw [poll_wait]
  generalize (check (.registration broker t service (.discarding u handle reason))).run w =
    checked at hchecked
  obtain ⟨p, w'⟩ := checked
  obtain rfl : p = _ := hchecked
  exact congrArg Prod.fst (poll_value n _ w')

/-- A registration goes on with whatever it guards against. -/
theorem resume_guarded (t : Ticket) (handle : Handle)
    {ended : Outcome (Except ServiceError Unit)} (hguarded : unguarded? service ended = none) :
    resume (.settingUp broker t handle service) ended =
      registering broker t service (Registration.setUpEnded · t handle ended) := by
  cases ended <;> rw [resume, setUpEnded, hguarded]

/-- What is left of a registration whose setup has ended in this way. -/
theorem resume_settingUp (t : Ticket) (handle : Handle)
    {ended : Outcome (Except ServiceError Unit)} (hguarded : unguarded? service ended = none)
    (w : World) :
    ((resume (.settingUp broker t handle service) ended).run w).1 =
      registered broker t service
        (Registration.setUpEnded (w.brokers[broker]?.getD noBroker) t handle ended).next := by
  rw [resume_guarded t handle hguarded, registering_fst]

/-- A registration that its service takes with it gives up the slot that it was given. -/
theorem resume_settingUp_unguarded (t : Ticket) (handle : Handle)
    {ended : Outcome (Except ServiceError Unit)} {payload : Payload}
    (hescapes : unguarded? service ended = some payload) (w : World) :
    (resume (.settingUp broker t handle service) ended).run w =
      (.panic payload, ((dropWait (.registration broker t service (.settingUp t handle))).run
        w).2) := by
  have hresume : resume (.settingUp broker t handle service) ended =
      (dropFrame (.settingUp broker t handle service) >>= fun _ => pure (.panic payload)) := by
    cases ended <;> rw [resume, setUpEnded, hescapes]
  rw [hresume]
  rfl

/-- Whatever becomes of a setup that has become a computation is guarded against. -/
theorem unguarded?_of_ne (hservice : ∀ name payload, service ≠ .abrupt name payload)
    (ended : Outcome (Except ServiceError Unit)) : unguarded? service ended = none := by
  rw [unguarded?.eq_def]
  split
  · exact absurd rfl (hservice _ _)
  · rfl

/-- Only a panic escapes, and only from a setup that breaks off when it is called. -/
theorem cases_of_unguarded {ended : Outcome (Except ServiceError Unit)} {payload : Payload}
    (h : unguarded? service ended = some payload) :
    ended = .panicked payload ∧ ∃ name own, service = .abrupt name own := by
  rw [unguarded?.eq_def] at h
  split at h
  · cases h
    exact ⟨rfl, _, _, rfl⟩
  · cases h

end Sim

/-- A setup that breaks off when it is called comes to nothing else. -/
theorem Runs.of_abrupt {handle : Handle} {name : String} {payload : Payload}
    {o : Outcome (Except ServiceError Unit)}
    (h : Runs (.begin (.setUp broker handle (.abrupt name payload))) turns o) :
    o = .panicked payload := by
  obtain ⟨-, w, w', rest, -, hruns⟩ := h.of_begin
  have hbegun : ((Sim.begin (.setUp broker handle (.abrupt name payload))).run w).1 =
      .panic payload := by
    rw [Sim.begin]
    rfl
  rw [hbegun] at hruns
  exact hruns.of_done.1

/-- A registration comes to a result, whatever becomes of the code of its service, unless it
breaks off with it; if the setup fails, the result tells the reason. -/
theorem Runs.of_settingUp {code : Future .setUp} {t : Ticket} {handle : Handle}
    {o : Outcome (Except BrokerError Handle)}
    (h : Runs (.bind code (.settingUp broker t handle service)) turns o) :
    ∃ own ended, Runs code own ended ∧ Opens own turns ∧
      (∀ payload, Sim.unguarded? service ended = some payload → o = .panicked payload) ∧
      (Sim.unguarded? service ended = none → ∃ result, o = .returned result ∧
        ∀ reason, Registration.failure? ended = some reason →
          result = .error (.initializationFailed handle.name reason)) := by
  obtain ⟨own, ended, v, w', rest, hown, hopens, hruns, -⟩ := h.of_bind
  refine ⟨own, ended, hown, hopens, ?escapes, ?guarded⟩
  case escapes =>
    intro payload hescapes
    rw [Sim.resume_settingUp_unguarded t handle hescapes] at hruns
    exact hruns.of_done.1
  case guarded =>
    intro hguarded
    have hresults : ∃ results : Except BrokerError Handle → Prop,
        Deciding broker service results
          ((Sim.resume (.settingUp broker t handle service) ended).run v).1 ∧
        ∀ result, results result → ∀ reason, Registration.failure? ended = some reason →
          result = .error (.initializationFailed handle.name reason) := by
      rw [Sim.resume_settingUp t handle hguarded]
      generalize v.brokers[broker]?.getD Sim.noBroker = b
      cases hreason : Registration.failure? ended with
      | none =>
          have hnext : (Registration.setUpEnded b t handle ended).next.IsDeciding
              fun _ => True := by
            rw [Registration.setUpEnded, hreason]
            exact Registration.isDeciding_confirmed handle _
          exact ⟨_, ⟨t, _, hnext, rfl⟩, fun _ _ _ h => (by cases h)⟩
      | some reason =>
          have hnext : (Registration.setUpEnded b t handle ended).next.IsDeciding
              (· = .error (.initializationFailed handle.name reason)) := by
            rw [Registration.setUpEnded, hreason]
            exact .discarding t handle reason
          refine ⟨_, ⟨t, _, hnext, rfl⟩, ?_⟩
          rintro result rfl _ ⟨⟩
          rfl
    obtain ⟨results, hdeciding, hall⟩ := hresults
    obtain ⟨u, next, hnext, hdone⟩ :=
      hruns.keeps (fun n f w hf => Sim.poll_deciding n w hf) hdeciding
    cases hnext with
    | confirming handle call => cases hdone
    | discarding u handle reason => cases hdone
    | finished result hresult =>
        cases hdone
        exact ⟨result, rfl, hall result hresult⟩

end Simulation

end EventHub
