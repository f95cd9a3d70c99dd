import EventHub.Proofs.Panics.Registrations
import EventHub.Proofs.Replay.Meanwhile
import EventHub.Proofs.Traffic.Accounts

/-!
A registration among the others, from its first turn to its result. Its ticket stays with it all
the way, so the traffic says of the ticket what the registration says of itself: which slot it was
given, how the setup of its service has ended, and what was decided then. A registration that
breaks off with its service has given its slot up.
-/

namespace EventHub

namespace Registration

variable {L : Type}

/-- What a registration goes on with once its setup has ended so: it is decided by that, or by a
broker that was closed. -/
inductive Next.Decides (handle : Handle) (failure : Option String) : Next L → Prop where
  | confirming (call : Call L) (hended : failure = none) :
      Decides handle failure (.suspended (.confirming handle call))
  | discarding (t : Ticket) (reason : String) (hended : failure = some reason) :
      Decides handle failure (.suspended (.discarding t handle reason))
  | admitted (hended : failure = none) : Decides handle failure (.finished (.ok handle))
  | failed (reason : String) (hended : failure = some reason) :
      Decides handle failure (.finished (.error (.initializationFailed handle.name reason)))
  | closed (hended : failure = none) : Decides handle failure (.finished (.error .closed))

theorem decides_setUpEnded (b : Broker L) (t : Ticket) (handle : Handle)
    (outcome : Outcome (Except ServiceError Unit)) :
    (setUpEnded b t handle outcome).next.Decides handle (failure? outcome) := by
  rw [setUpEnded]
  cases hended : failure? outcome with
  | some reason => exact .discarding t reason rfl
  | none =>
      simp only [Broker.call]
      split
      · exact .closed rfl
      · exact .confirming _ rfl

end Registration

namespace Traffic

variable {L : Type} {x : Traffic L} {ended : Ticket → Handle → Option String → Prop} {u : Ticket}

/-- However often a registration goes on, what its setup has come to is what decides it. -/
theorem Orderly.decides_resume (h : x.Orderly ended) {name : String} {stage : Registration L}
    (htask : x.tasks u = some ⟨.registering name stage, false⟩) {handle : Handle}
    {failure : Option String}
    (hstage : (Registration.Next.suspended stage).Decides handle failure) :
    (Registration.resume x.broker stage).next.Decides handle failure := by
  cases hstage with
  | discarding t reason hended =>
      simp only [Registration.resume]
      cases (x.broker.mailbox.send t ⟨.discard handle.id, none⟩).2 with
      | waits => exact .discarding t reason hended
      | accepted => exact .failed reason hended
      | refused => exact .failed reason hended
  | confirming call hended =>
      cases h.stands u _ htask with
      | other _ _ hplain => exact hplain.elim
      | confirming _ _ howns haccount =>
          have hprogress := haccount.resume
          simp only [Registration.resume]
          generalize x.broker.resume call = p at hprogress
          obtain ⟨b, called⟩ := p
          cases hprogress with
          | suspended call' => exact .confirming call' hended
          | answered a hidle hanswer =>
              obtain rfl := hanswer.settled howns.issued
                (h.decided howns.issued (not_forsakes htask (by simp)))
              exact .admitted hended
          | closed => exact .closed hended

end Traffic

namespace Simulation

open EventHub.Script

variable {k i : Nat} {x : Traffic Action} {u : Ticket} {v w : World} {service : Service}
  {F : Held}

/-- A registration is at one of these points, and so is its ticket in the traffic. -/
def Registers (k : Nat) (service : Service) (u : Ticket)
    (stages : Registration.Next Action → Prop) (f : Future .handle) : Held := fun x ts =>
  ∃ t next, stages next ∧ f = registered k t service next ∧
    Does u (next.activity (serviceName service)) x ts

theorem local_registers (stages : Registration.Next Action → Prop) (f : Future .handle) :
    (Registers k service u stages f).Local := by
  rintro x x' ts ⟨t, next, hnext, hf, hdoes⟩ htasks
  exact ⟨t, next, hnext, hf, local_does _ _ hdoes htasks⟩

theorem Registers.of_wait {stages : Registration.Next Action → Prop} {wait : Wait .handle}
    {ts : List Ticket} (h : Registers k service u stages (.wait wait) x ts) :
    ∃ t stage, stages (.suspended stage) ∧ wait = .registration k t service stage ∧
      Does u (.registering (serviceName service) stage) x ts := by
  obtain ⟨t, next, hnext, hf, hdoes⟩ := h
  cases next with
  | suspended stage =>
      cases hf
      exact ⟨t, stage, hnext, rfl, hdoes⟩
  | setUp t handle => cases hf
  | finished result => cases hf

namespace Sim

/-- What becomes of a broker, with what is next and the slot that is left to discard. -/
def acted (act : Broker Action → Registration.Result Action) (b : Broker Action) :
    Broker Action × Registration.Next Action × Option ServiceId :=
  ((act b).broker, (act b).next, (act b).orphan)

theorem registering_eq (t : Ticket) (act : Broker Action → Registration.Result Action) :
    registering k t service act = (onBroker k (acted act) >>= fun p =>
      discardLater k p.2 >>= fun _ => pure (registered k t service p.1)) := by
  rw [registering]
  refine congrArg (onBroker k (acted act) >>= ·) (funext fun p => ?_)
  refine congrArg (discardLater k p.2 >>= ·) (funext fun _ => ?_)
  cases p.1 <;> rfl

end Sim

namespace Replays

theorem orderly (h : Replays k (some i) x w) {b : Broker Action} (hb : w.brokers[k]? = some b) :
    ∃ ended, x.Orderly ended := by
  obtain ⟨-, -, config, worker, moves, rfl⟩ := h.found b hb
  exact ⟨_, Traffic.orderly_run config worker moves⟩

/-- A registration goes on by a turn of its ticket. -/
theorem registering (h : Replays k (some i) x w) {b : Broker Action} (hb : w.brokers[k]? = some b)
    (hown : Owns i w [u]) {turn : Turn Action}
    {act : Broker Action → Registration.Result Action}
    (hturn : x.turn u turn = x.registering u (serviceName service) (act x.broker)) (t : Ticket)
    {stages : Registration.Next Action → Prop} (hstages : stages (act x.broker).next) :
    Lands k i [u] x w ((Sim.registering k t service act).run w).2
      (Registers k service u stages ((Sim.registering k t service act).run w).1) := by
  obtain ⟨hbroker, htask, horphan⟩ := x.registering_spec u (serviceName service) (act x.broker)
  rw [← hturn] at hbroker htask horphan
  obtain ⟨rfl, -⟩ := h.found b hb
  have hgoes : ((Sim.registering k t service act).run w).1 =
      registered k t service (act x.broker).next := by
    rw [Sim.registering_fst, hb]
    rfl
  obtain ⟨hvalue, hcalm⟩ := Sim.onBroker_found hb (Sim.acted act)
  have hacted : Lands k i [u] x w ((Sim.onBroker k (Sim.acted act)).run w).2 fun x' ts' =>
      Does u ((act x.broker).next.activity (serviceName service)) x' ts' ∧
        (k = k → ∀ id ∈ (act x.broker).orphan, id ∈ x'.orphans) :=
    (h.turn hb hown turn hbroker hcalm).mono fun x' ts' ⟨hts', htasks, horphans⟩ =>
      ⟨ts', .refl _, ⟨hts', htasks ▸ htask⟩, fun _ => horphans ▸ horphan⟩
  have hdone : Lands k i [u] x w ((Sim.registering k t service act).run w).2
      (Does u ((act x.broker).next.activity (serviceName service))) := by
    rw [Sim.registering_eq, Sim.run_bind, hvalue]
    refine hacted.bind fun x' ts' hx' hdoes hown' => ?_
    exact Sim.Plays.bind (Sim.plays_discardLater _ (local_does _ _))
      (fun _ => .pure fun _ _ h => h) x' ts' _ hx' hdoes hown'
  rw [hgoes]
  exact hdone.mono fun x' ts' hdoes => ⟨ts', .refl _, t, _, hstages, rfl, hdoes⟩

end Replays

namespace Sim

/-- These stages are kept to, however often the registration goes on. -/
def KeepsTo (u : Ticket) (name : String) (stages : Registration.Next Action → Prop) : Prop :=
  ∀ (x : Traffic Action) ended stage, x.Orderly ended →
    x.tasks u = some ⟨.registering name stage, false⟩ → stages (.suspended stage) →
    stages (Registration.resume x.broker stage).next

theorem keepsTo_reserving (u : Ticket) (name : String) : KeepsTo u name (·.IsReserving name) := by
  intro x ended stage _ _ hstage
  cases hstage with
  | asking call =>
      rw [Registration.resume_reserving]
      exact Registration.isReserving_reserved _ fun _ => Broker.error_resume

theorem keepsTo_deciding (u : Ticket) (name : String) (handle : Handle)
    (failure : Option String) : KeepsTo u name (·.Decides handle failure) :=
  fun _ _ _ horderly htask hstage => horderly.decides_resume htask hstage

theorem plays_check_registers {stages : Registration.Next Action → Prop}
    (hstages : KeepsTo u (serviceName service) stages) (wait : Wait .handle) :
    Plays k i (Registers k service u stages (.wait wait)) (check wait) fun p =>
      Registers k service u stages p.future := by
  intro x ts w h hx hown
  obtain ⟨t, stage, -, rfl, -⟩ := hx.of_wait
  have hlook : Plays k i (Registers k service u stages (.wait (.registration k t service stage)))
      (registering k t service (Registration.resume · stage)) fun f =>
        Registers k service u stages f := by
    intro x ts w h hx hown
    obtain ⟨t', stage', hstage, heq, rfl, htask⟩ := hx.of_wait
    cases heq
    obtain ⟨b, hb⟩ := h.found_of_task htask
    obtain ⟨ended, horderly⟩ := h.orderly hb
    exact h.registering hb hown (Traffic.turn_some htask .goOn) t
      (hstages x ended stage horderly htask hstage)
  have hlisten (wait : Wait .handle) :
      Plays k i (Registers k service u stages (.wait wait)) (listen wait) fun _ =>
        Registers k service u stages (.wait wait) := by
    intro x ts w h hx hown
    obtain ⟨t, stage, hstage, rfl, hdoes⟩ := hx.of_wait
    refine (plays_listen_registration t u service _ stage x ts w h hdoes hown).mono ?_
    exact fun x' ts' hdoes' => ⟨ts', .refl _, t, .suspended stage, hstage, rfl, hdoes'⟩
  rw [check]
  exact plays_take (local_registers stages) hlisten (plays_of hlook) x ts w h hx hown

/-- A look that ends the wait of a registration does not make it wait again. -/
theorem check_registers {stages : Registration.Next Action → Prop} {wait : Wait .handle}
    {f : Future .handle} {ts : List Ticket}
    (h : Registers k service u stages (.wait wait) x ts)
    (hnext : ((check wait).run w).1 = .next f) (next : Wait .handle) : f ≠ .wait next := by
  rintro rfl
  obtain ⟨t, stage, -, rfl, -⟩ := h.of_wait
  rcases check_registration k service t stage w with hlooked | hlooked
  · cases hlooked.symm.trans hnext
  · rw [hnext] at hlooked
    generalize (Registration.resume (w.brokers[k]?.getD noBroker) stage).next = next' at hlooked
    cases next' <;> cases hlooked

/-- A registration begins with a new ticket. -/
theorem begin_registers (hF : F.Local) (hx : Holding k i F x w) {b : Broker Action}
    (hb : w.brokers[k]? = some b) :
    ∃ u, w.serial ≤ u.serial ∧ Arrives k i x w ((Sim.begin (.register k service)).run w).2
      ((Registers k service u (·.IsReserving (serviceName service))
        ((Sim.begin (.register k service)).run w).1).sep F) := by
  let u : Ticket := ⟨w.current, w.serial⟩
  let act (b : Broker Action) : Registration.Result Action :=
    Registration.start b u (serviceName service)
  refine ⟨u, Nat.le_refl _, ?_⟩
  obtain ⟨x₁, tf, hx₁, hheld, hnone, hown, honward, hserial⟩ := hx.ticket hF
  have hnext : (act x₁.broker).next.IsReserving (serviceName service) :=
    Registration.isReserving_reserved _ fun _ => Broker.error_call
  have hturn : x₁.turn u (.begin (.register (serviceName service))) =
      x₁.registering u (serviceName service) (act x₁.broker) := Traffic.turn_none hnone _
  have hbroker : (ticket.run w).2.brokers[k]? = some b := hb
  obtain ⟨x₂, _, hgoes, ⟨ti, rfl, hregisters, htasks⟩, hown₂, -⟩ :=
    (hx₁.registering hbroker (hown.sublist (List.sublist_append_left _ tf)) hturn u hnext).beside
      hown
  rw [begin]
  exact ⟨x₂, ⟨hgoes.replays, _, ⟨ti, tf, rfl, hregisters, hF hheld htasks⟩, hown₂⟩,
    honward.trans hgoes.onward, Nat.le_trans hserial hgoes.serial⟩

/-- The registration goes on with what the setup has come to. -/
theorem plays_resume_settingUp (t : Ticket) (handle : Handle)
    {outcome : Outcome (Except ServiceError Unit)} (hguarded : unguarded? service outcome = none) :
    Plays k i (Does u (.registering (serviceName service) (.settingUp t handle)))
      (resume (.settingUp k t handle service) outcome)
      (Registers k service u (·.Decides handle (Registration.failure? outcome))) := by
  rintro x _ w h ⟨rfl, htask⟩ hown
  obtain ⟨b, hb⟩ := h.found_of_task htask
  rw [resume_guarded t handle hguarded]
  exact h.registering hb hown (Traffic.turn_some htask (.setUpEnded outcome)) t
    (Registration.decides_setUpEnded x.broker t handle outcome)

end Sim

/-- What a registration has come to in these turns. The broker has refused it a slot; or the
service was initialized, and the registration is decided by what that has come to, or by a broker
that was closed. -/
inductive Initializes (k : Nat) (service : Service) (turns : List (World × World)) :
    Except BrokerError Handle → Prop
  | refused : Initializes k service turns (.error .closed)
  | called {result : Except BrokerError Handle} (handle : Handle)
      (outcome : Outcome (Except ServiceError Unit)) (own rest : List (World × World))
      (hname : handle.name = serviceName service)
      (hruns : Runs (.begin (.setUp k handle service)) own outcome) (hopens : Opens own rest)
      (hrest : rest.map Prod.snd <:+ turns.map Prod.snd)
      (hdecides : (Registration.Next.finished (L := Action) result).Decides handle
        (Registration.failure? outcome)) :
      Initializes k service turns result

/-- A registration has broken off in these turns: the setup of its service was called, and broke
off before that had become a computation. -/
structure BreaksOff (k : Nat) (service : Service) (turns : List (World × World))
    (payload : Payload) : Prop where
  unguarded : Sim.unguarded? service (.panicked payload) = some payload
  called : ∃ handle own rest, handle.name = serviceName service ∧
    Runs (.begin (.setUp k handle service)) own (.panicked payload) ∧ Opens own rest ∧
    rest.map Prod.snd <:+ turns.map Prod.snd

theorem BreaksOff.abrupt {turns : List (World × World)} {payload : Payload}
    (h : BreaksOff k service turns payload) : ∃ name, service = .abrupt name payload := by
  obtain ⟨-, name, own, rfl⟩ := Sim.cases_of_unguarded h.unguarded
  obtain ⟨handle, _, _, -, hruns, -⟩ := h.called
  cases hruns.of_abrupt
  exact ⟨name, rfl⟩

/-- A registration is admitted, fails with its service, or finds the broker closed. -/
theorem Initializes.result_cases {turns : List (World × World)}
    {result : Except BrokerError Handle} (h : Initializes k service turns result) :
    (∃ handle, result = .ok handle) ∨
      (∃ name reason, result = .error (.initializationFailed name reason)) ∨
      result = .error .closed := by
  cases h with
  | refused => exact Or.inr (Or.inr rfl)
  | called handle outcome own rest hname hruns hopens hrest hdecides =>
      cases hdecides with
      | admitted => exact Or.inl ⟨_, rfl⟩
      | failed reason => exact Or.inr (Or.inl ⟨_, _, rfl⟩)
      | closed => exact Or.inr (Or.inr rfl)

/-- The registration has come to its result, and the task holds what it held besides. -/
def Ended (F : Held) (service : Service) (u : Ticket) (result : Except BrokerError Handle) : Held :=
  fun x ts => F x ts ∧ x.tasks u = some ⟨.registered (serviceName service) result, false⟩

/-- The registration waits for the setup of its service. -/
def SettingUp (F : Held) (service : Service) (u t : Ticket) (handle : Handle) : Held :=
  (Does u (.registering (serviceName service) (.settingUp t handle))).sep F

theorem ended_of_registers {stages : Registration.Next Action → Prop} {f : Future .handle}
    {ts : List Ticket} (h : (Registers k service u stages f).sep F x ts)
    (hgoes : ∀ wait, f ≠ .wait wait) :
    (∃ result, stages (.finished result) ∧ f = .value result ∧
      ∃ tf, tf.Sublist ts ∧ Ended F service u result x tf) ∨
    ∃ t handle, stages (.setUp t handle) ∧
      f = .bind (.begin (.setUp k handle service)) (.settingUp k t handle service) ∧
      SettingUp F service u t handle x ts := by
  obtain ⟨ti, tf, rfl, ⟨t, next, hnext, rfl, hdoes⟩, hheld⟩ := h
  cases next with
  | suspended stage => exact absurd rfl (hgoes _)
  | setUp t handle => exact Or.inr ⟨t, handle, hnext, rfl, ti, tf, rfl, hdoes, hheld⟩
  | finished result =>
      exact Or.inl ⟨result, hnext, rfl, tf, List.sublist_append_right ti tf, hheld, hdoes.2⟩

namespace Performs

variable {least : Nat} {f : Future .handle} {w' last : World} {turns rest : List (World × World)}
  {o : Outcome (Except BrokerError Handle)} {stages : Registration.Next Action → Prop}

theorem meanwhile_registers {wait : Wait .handle}
    (h : Beside k i F (.wait wait) v w) :
    Meanwhile k i ((Registers k service u stages (.wait wait)).sep F) v w := by
  refine Meanwhile.weaken h ?_
  rintro x _ ⟨ti, tf, rfl, hregisters, hheld⟩
  obtain ⟨t, stage, -, rfl, rfl, htask⟩ := hregisters.of_wait
  exact ⟨_, tf, rfl, Carries.of_task rfl htask ⟨_, rfl⟩, hheld⟩

/-- A registration that waits for the broker comes to another point. -/
theorem registers_goes (hF : F.Local) (hstages : Sim.KeepsTo u (serviceName service) stages)
    (h : Performs (Beside k i F) (least + 1) v f ((v, w') :: rest) o)
    (hx : Holding k i ((Registers k service u stages f).sep F) x v) :
    ∃ (f' : Future .handle) (mid w₁ : World) (later : List (World × World)),
      (∀ wait, f' ≠ .wait wait) ∧
      Performs (Beside k i F) least mid f' ((mid, w₁) :: later) o ∧
      (w₁ :: later.map Prod.snd) <:+ w' :: rest.map Prod.snd ∧
      Arrives k i x v mid ((Registers k service u stages f').sep F) := by
  by_cases hwaits : ∃ wait, f = .wait wait
  · obtain ⟨wait, rfl⟩ := hwaits
    have hcheck (wait : Wait .handle) :=
      (Sim.plays_check_registers (k := k) (i := i) hstages wait).frame hF
    obtain ⟨wait', mid, x', f', w₁, later, hx', honward, hserial, hnext, hruns, hends⟩ :=
      h.of_look (fun _ _ => .refl _ _) (fun _ _ _ => meanwhile_registers)
        (fun f => (local_registers stages f).sep hF) hcheck hx
    have hlooked := (hcheck wait').arrives hx'
    rw [hnext] at hlooked
    obtain ⟨-, ts, ⟨ti, tf, -, hregisters, -⟩, -⟩ := hx'
    exact ⟨f', _, w₁, later, Sim.check_registers hregisters hnext, hruns, hends,
      hlooked.after honward hserial⟩
  · exact ⟨f, v, w', rest, fun wait hf => hwaits ⟨wait, hf⟩, h.mono (Nat.le_succ least),
      List.suffix_rfl, .refl hx⟩

/-- A registration that has come out is over in this very turn. -/
theorem arrives_ended {mid w₁ : World} {later : List (World × World)} {ts : List Ticket}
    {result : Except BrokerError Handle} {x' : Traffic Action}
    (h : Performs (Beside k i F) least mid (.value (a := .handle) result) ((mid, w₁) :: later) o)
    (hends : (w₁ :: later.map Prod.snd) <:+ w' :: rest.map Prod.snd)
    (hlast : ((v, w') :: rest).getLast?.map Prod.snd = some last)
    (hx' : Replays k (some i) x' mid) (hown : Owns i mid ts)
    (hended : ∃ tf, tf.Sublist ts ∧ Ended F service u result x' tf) :
    o = .returned result ∧ Holding k i (Ended F service u result) x' last ∧ last = mid := by
  obtain ⟨rfl, rfl, rfl⟩ := h.of_ended
  obtain rfl : w₁ = last := by
    have hmid := last_of_suffix (v := v) (u := w₁) hends
    rw [hlast] at hmid
    exact Option.some.inj hmid
  obtain ⟨tf, hsub, hended⟩ := hended
  exact ⟨rfl, ⟨hx', tf, hended, hown.sublist hsub⟩, rfl⟩

/-- Once the setup has ended, the registration is decided. -/
theorem registers_decided (hF : F.Local) {handle : Handle} {failure : Option String}
    (h : Performs (Beside k i F) (least + 1) v f ((v, w') :: rest) o)
    (hx : Holding k i ((Registers k service u (·.Decides handle failure) f).sep F) x v)
    (hlast : ((v, w') :: rest).getLast?.map Prod.snd = some last) :
    ∃ result, o = .returned result ∧
      (Registration.Next.finished (L := Action) result).Decides handle failure ∧
      Arrives k i x v last (Ended F service u result) := by
  obtain ⟨f', mid, w₁, later, hgoes, hruns, hends, x', ⟨hx', ts, hts, hown⟩, honward, hserial⟩ :=
    registers_goes hF (Sim.keepsTo_deciding u _ handle failure) h hx
  rcases ended_of_registers hts hgoes with ⟨result, hdecides, rfl, hended⟩ | ⟨t, own, hdecides, -⟩
  · obtain ⟨ho, hheld, rfl⟩ := hruns.arrives_ended hends hlast hx' hown hended
    exact ⟨result, ho, hdecides, x', hheld, honward, hserial⟩
  · cases hdecides

/-- The service is initialized. What that has come to decides the registration, or takes it with
it. -/
theorem registers_called (hF : F.Local) {t : Ticket} {handle : Handle}
    (h : Performs (Beside k i F) (least + 2) v
      (.bind (.begin (.setUp k handle service)) (.settingUp k t handle service))
      ((v, w') :: rest) o)
    (hx : Holding k i (SettingUp F service u t handle) x v)
    (hlast : ((v, w') :: rest).getLast?.map Prod.snd = some last) :
    ∃ outcome own, Runs (.begin (.setUp k handle service)) own outcome ∧
      Opens own ((v, w') :: rest) ∧
      ((∃ result, o = .returned result ∧
        (Registration.Next.finished (L := Action) result).Decides handle
          (Registration.failure? outcome) ∧ Arrives k i x v last (Ended F service u result)) ∨
      ∃ payload, o = .panicked payload ∧ outcome = .panicked payload ∧
        Sim.unguarded? service outcome = some payload ∧ Arrives k i x v last F) := by
  obtain ⟨own, outcome, mid, w₁, later, hown, hspans, hopens, hruns, hends⟩ :=
    h.of_bind fun _ _ => .refl _ _
  -- While the service's own code runs, the registration waits for it with its ticket.
  let held (g : Future .setUp) : Held :=
    Held.sep (fun x => g.Holds k x) (SettingUp F service u t handle)
  have hlocal : (SettingUp F service u t handle).Local := (local_does _ _).sep hF
  have hsetUp : Performs (fun g => Meanwhile k i (held g)) (least + 1) v
      (.begin (.setUp k handle service)) own outcome := by
    refine hown.imp fun g v w hsince => Meanwhile.weaken hsince ?_
    rintro x _ ⟨ti, _, rfl, hti, tu, tf, rfl, ⟨rfl, htask⟩, htf⟩
    exact ⟨ti ++ [u], tf, (List.append_assoc ..).symm,
      ⟨ti, [u], rfl, hti, Carries.of_task rfl htask ⟨_, rfl⟩⟩, htf⟩
  have hbegun : Holding k i (held (.begin (.setUp k handle service))) x v :=
    hx.mono fun ts hts => ⟨[], ts, rfl, ⟨by simp [Begin.discardsAt?], rfl⟩, hts⟩
  have hset := hsetUp.arrives (fun g => (Held.local_future k g).sep hlocal)
    (fun n g => (Sim.plays_poll n g).frame hlocal) hbegun hspans.last
  obtain ⟨x', hx', honward, hserial⟩ := hset.mono (Q := SettingUp F service u t handle)
    fun _ _ h => Held.none_sep h
  have hlast' (w : World) : ((w, w₁) :: later).getLast?.map Prod.snd = some last :=
    (last_of_suffix hends).trans hlast
  refine ⟨outcome, own, hown.runs, hopens, ?_⟩
  cases hescapes : Sim.unguarded? service outcome with
  | none =>
      obtain ⟨x'', hx'', honward', hserial'⟩ := ((Sim.plays_resume_settingUp (k := k) (i := i)
        t handle hescapes).frame hF).arrives hx'
      obtain ⟨result, ho, hdecides, hended⟩ := hruns.registers_decided hF hx'' (hlast' _)
      exact Or.inl ⟨result, ho, hdecides, (hended.after honward' hserial').after honward hserial⟩
  | some payload =>
      let stage : Wait .handle := .registration k t service (.settingUp t handle)
      have hheld : Holding k i (Held.sep (fun x => stage.Holds k x) F) x' mid := by
        refine hx'.mono ?_
        rintro _ ⟨_, tf, rfl, ⟨rfl, htask⟩, htf⟩
        exact ⟨[u], tf, rfl, Carries.of_task rfl htask ⟨_, rfl⟩, htf⟩
      have hdropped : Arrives k i x' mid ((Sim.dropWait stage).run mid).2 F :=
        (((Sim.plays_dropWait stage).frame hF).arrives hheld).mono fun _ _ h => Held.none_sep h
      rw [Sim.resume_settingUp_unguarded t handle hescapes] at hruns
      obtain ⟨rfl, hlast₁, rfl⟩ := hruns.of_ended
      obtain rfl : w₁ = last := Option.some.inj (hlast' mid)
      rw [hlast₁]
      exact Or.inr ⟨payload, rfl, (Sim.cases_of_unguarded hescapes).1, rfl,
        hdropped.after honward hserial⟩

/-- The name of the slot that a service was given is its own. -/
theorem name_of_settingUp {t : Ticket} {handle : Handle}
    (hx : Holding k i (SettingUp F service u t handle) x v) :
    handle.name = serviceName service := by
  obtain ⟨hx, _, ⟨_, _, rfl, ⟨-, htask⟩, -⟩, -⟩ := hx
  obtain ⟨b, hb⟩ := hx.found_of_task htask
  obtain ⟨ended, horderly⟩ := hx.orderly hb
  have hstands := horderly.stands u _ htask
  generalize serviceName service = name at hstands
  cases hstands with
  | other _ _ hplain => exact hplain.elim
  | settingUp => rfl

/-- A registration among the others: it begins with a ticket of its own, and ends with its result
there, or breaks off with its service. -/
theorem registers (hF : F.Local)
    (h : Performs (Beside k i F) 4 v (.begin (.register k service)) turns o)
    (hfound : ∃ b, v.brokers[k]? = some b) (hx : Holding k i F x v)
    (hlast : turns.getLast?.map Prod.snd = some last) :
    (∃ u result, x.tasks u = none ∧ o = .returned result ∧ Initializes k service turns result ∧
      Arrives k i x v last (Ended F service u result)) ∨
    ∃ payload, o = .panicked payload ∧ BreaksOff k service turns payload ∧
      Arrives k i x v last F := by
  obtain ⟨w, w', rest, rfl, hbegun, x₁, b₁, hx₁, hb₁, honward₁, -, hserial₁⟩ :=
    h.begins hF (fun _ => ⟨by simp [Begin.discardsAt?], rfl⟩) hfound hx
  obtain ⟨u, hu, x₂, hx₂, honward₂, hserial₂⟩ := Sim.begin_registers hF hx₁ hb₁
  have hnone : x.tasks u = none := hx.1.new (Nat.le_trans hserial₁ hu)
  obtain ⟨f, mid, w₁, later, hgoes, hruns, hends, x₃, hx₃, honward₃, hserial₃⟩ :=
    registers_goes hF (Sim.keepsTo_reserving u _) hbegun hx₂
  have honward := (honward₁.trans honward₂).trans honward₃
  have hserial := Nat.le_trans (Nat.le_trans hserial₁ hserial₂) hserial₃
  have hlast₁ := (last_of_suffix (v := w) (u := mid) hends).trans hlast
  obtain ⟨hreplays, ts, hts, hown⟩ := hx₃
  rcases ended_of_registers hts hgoes with
    ⟨result, hreserving, rfl, hended⟩ | ⟨t, handle, -, rfl, hsetUp⟩
  · obtain ⟨rfl, hheld, rfl⟩ := hruns.arrives_ended List.suffix_rfl hlast₁ hreplays hown hended
    cases hreserving
    exact Or.inl ⟨u, _, hnone, rfl, .refused, x₃, hheld, honward, hserial⟩
  · have hx₃ : Holding k i (SettingUp F service u t handle) x₃ mid := ⟨hreplays, ts, hsetUp, hown⟩
    obtain ⟨outcome, own, hrun, hopens, hended⟩ := hruns.registers_called hF hx₃ hlast₁
    rcases hended with ⟨result, rfl, hdecides, hended⟩ | ⟨payload, rfl, rfl, hescapes, hheld⟩
    · exact Or.inl ⟨u, result, hnone, rfl,
        .called handle outcome own _ (name_of_settingUp hx₃) hrun hopens hends hdecides,
        hended.after honward hserial⟩
    · exact Or.inr ⟨payload, rfl,
        ⟨hescapes, handle, own, _, name_of_settingUp hx₃, hrun, hopens, hends⟩,
        hheld.after honward hserial⟩

end Performs

end Simulation

end EventHub
