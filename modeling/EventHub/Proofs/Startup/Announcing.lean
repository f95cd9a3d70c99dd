import EventHub.Proofs.Panics.Dispatches
import EventHub.Proofs.Replay.Meanwhile
import EventHub.Proofs.Traffic.Accounts

/-!
A dispatch among the others, from its first turn to its report. It asks the registry for the
listeners with a ticket of its own. What the traffic says of that ticket when the answer comes says
which listeners they are: those that were committed when the registry took the command.
-/

namespace EventHub.Simulation

open EventHub.Script

variable {k i : Nat} {x x' : Traffic Action} {u : Ticket} {event : Event} {v w : World} {F : Held}
  {f : Future .report}

/-- Where a dispatch goes on that has asked for its listeners. -/
inductive Asked (k : Nat) (event : Event) : Dispatch.Next Action → Future .report → Prop
  | asking (call : EventHub.Call Action) :
      Asked k event (.asking event call) (.wait (.asking k event call))
  | closed : Asked k event (.finished (.error .closed)) (.value (.error .closed))
  | found {f : Future .report} (list : List (Subscription Action))
      (hunderway : Underway k (.fresh event list) f) :
      Asked k event (Dispatch.fresh event list).next f

/-- A dispatch has asked for its listeners, and so has its ticket in the traffic. -/
def Asks (k : Nat) (event : Event) (u : Ticket) (f : Future .report) : Held := fun x ts =>
  ∃ next, Asked k event next f ∧ Does u (next.activity event) x ts

theorem local_asks (k : Nat) (event : Event) (u : Ticket) (f : Future .report) :
    (Asks k event u f).Local := by
  rintro x x' ts ⟨next, hasked, hdoes⟩ htasks
  exact ⟨next, hasked, local_does _ _ hdoes htasks⟩

theorem Asks.of_wait {wait : Wait .report} {ts : List Ticket}
    (h : Asks k event u (.wait wait) x ts) :
    ∃ call, wait = .asking k event call ∧ Does u (.firing event call) x ts := by
  obtain ⟨next, hasked, hdoes⟩ := h
  generalize hf : Future.wait wait = f at hasked
  cases hasked with
  | asking call =>
      cases hf
      exact ⟨call, rfl, hdoes⟩
  | closed => cases hf
  | found list hunderway =>
      subst hf
      cases hunderway

/-- What has asked for listeners holds its ticket while it waits for them, or for one of them. -/
theorem Asks.holds {ts : List Ticket} (h : Asks k event u f x ts) :
    ∃ ts', ts'.Sublist ts ∧ f.Holds k x ts' := by
  obtain ⟨next, hasked, rfl, htask⟩ := h
  cases hasked with
  | asking call => exact ⟨[u], .refl _, Carries.of_task rfl htask rfl⟩
  | closed => exact ⟨[], List.nil_sublist _, rfl⟩
  | found list hunderway =>
      cases hunderway with
      | reports => exact ⟨[], List.nil_sublist _, rfl⟩
      | calls s rest alarm deadline hremaining =>
          obtain rfl : list = s :: rest := hremaining
          have hcode : (listenerCode s event).Plain k := Sim.plain_delivery _ _ _
          refine ⟨[u], .refl _, [], [u], rfl, ?_, Carries.of_task rfl htask rfl⟩
          cases alarm with
          | none => exact hcode.map _ x
          | some alarm => exact hcode x

theorem Holding.found_of_asks (h : Holding k i ((Asks k event u f).sep F) x w) :
    ∃ b, w.brokers[k]? = some b := by
  obtain ⟨hx, _, ⟨_, _, _, ⟨_, _, _, htask⟩, _⟩, _⟩ := h
  exact hx.found_of_task htask

/-- What a dispatch is told that has asked for its listeners, after the registry has taken these
commands. -/
inductive Told (k : Nat) (event : Event) (u : Ticket) (x : Traffic Action) :
    Future .report → Prop
  | asking (call : EventHub.Call Action) : Told k event u x (.wait (.asking k event call))
  | closed (hclosed : x.broker.isClosed = true) : Told k event u x (.value (.error .closed))
  | listeners {f : Future .report} (before : List (Served Action))
      (hsnapshot : SnapshotAfter x.served u event.kind before)
      (hunderway : Underway k (.fresh event (Served.committed before event.kind)) f) :
      Told k event u x f

namespace Sim

theorem asked_dispatched {p : Broker Action × Called Action}
    (hp : ∀ e, p.2 = .finished (.error e) → e = .closed) (deadline : Option Duration) (w : World) :
    Asked k event (Dispatch.asked event p).2
      ((dispatched k deadline (Dispatch.asked event p).2).run w).1 := by
  rcases Dispatch.asked_snd hp with ⟨call, hnext⟩ | hnext | ⟨found, hnext⟩
  · rw [hnext]
    exact .asking call
  · rw [hnext]
    exact .closed
  · rw [hnext]
    exact .found found (underway_dispatched deadline _ w)

theorem told_dispatched {p : Broker Action × Called Action}
    (hprogress : p.1.Progress x.served u (.snapshot event.kind) [] p.2)
    (hclosed : ∀ e, p.2 = .finished (.error e) → x.broker.isClosed = true)
    (deadline : Option Duration) (w : World) :
    Told k event u x ((dispatched k deadline (Dispatch.asked event p).2).run w).1 := by
  obtain ⟨b, called⟩ := p
  cases hprogress with
  | suspended call => exact .asking call
  | closed => exact .closed (hclosed _ rfl)
  | answered a hidle hanswer =>
      obtain ⟨before, hsnapshot, rfl⟩ := hanswer.snapshot
      have hnext : (Dispatch.asked event
          (b, .finished (.ok (.subscriptions (Served.committed before event.kind))))).2 =
          (Dispatch.fresh event (Served.committed before event.kind)).next :=
        Dispatch.advance_snd _ _
      rw [hnext]
      exact .listeners before hsnapshot (underway_dispatched deadline _ w)

theorem calms_dispatched (deadline : Option Duration) (next : Dispatch.Next Action) :
    Calms k (dispatched k deadline next) := by
  cases next with
  | asking event call => exact .pure _
  | finished result => exact .pure _
  | deliver s rest =>
      cases deadline with
      | none => exact .pure _
      | some d => exact .bind (calms_alarmAfter d) fun alarm => .pure _

theorem dispatching_eq (act : Broker Action → Broker Action × Dispatch.Next Action) :
    dispatching k act = (onBroker k (fun b => ((act b).1, ((act b).2, (act b).1.listenerDeadline)))
      >>= fun p => dispatched k p.2 p.1) := rfl

/-- Goes on with a dispatch as the broker that is there makes it go on. -/
theorem dispatching_fst {b : Broker Action} (hb : w.brokers[k]? = some b)
    (act : Broker Action → Broker Action × Dispatch.Next Action) :
    ∃ deadline v, ((dispatching k act).run w).1 = ((dispatched k deadline (act b).2).run v).1 := by
  refine ⟨(act b).1.listenerDeadline, ?_, ?_⟩
  · exact ((onBroker k fun b => ((act b).1, ((act b).2, (act b).1.listenerDeadline))).run w).2
  · rw [dispatching_eq, run_bind, (onBroker_found hb _).1]

theorem plays_dispatched_asks {next : Dispatch.Next Action}
    (hasked : ∀ deadline v, Asked k event next ((dispatched k deadline next).run v).1)
    (deadline : Option Duration) :
    Plays k i (Does u (next.activity event)) (dispatched k deadline next) (Asks k event u) :=
  fun x ts w h hdoes hown =>
    (Plays.calm (calms_dispatched deadline next) (local_does _ _) x ts w h hdoes hown).mono
      fun _ ts' hdoes' => ⟨ts', .refl _, next, hasked deadline w, hdoes'⟩

end Sim

namespace Replays

/-- A dispatch goes on by a turn of its ticket. -/
theorem dispatching (h : Replays k (some i) x w) {b : Broker Action} (hb : w.brokers[k]? = some b)
    (hown : Owns i w [u]) {turn : Turn Action}
    {act : Broker Action → Broker Action × Dispatch.Next Action}
    (hturn : x.turn u turn = x.dispatching u event (act x.broker))
    (hasked : ∀ deadline v,
      Asked k event (act x.broker).2 ((Sim.dispatched k deadline (act x.broker).2).run v).1) :
    Lands k i [u] x w ((Sim.dispatching k act).run w).2
      (Asks k event u ((Sim.dispatching k act).run w).1) := by
  obtain ⟨hbroker, htask⟩ := x.dispatching_spec u event (act x.broker)
  rw [← hturn] at hbroker htask
  obtain ⟨rfl, -⟩ := h.found b hb
  obtain ⟨hvalue, hcalm⟩ := Sim.onBroker_found hb fun b =>
    ((act b).1, ((act b).2, (act b).1.listenerDeadline))
  have hacted := Lands.mono (h.turn hb hown turn hbroker hcalm)
    fun x' ts' ⟨hts', htasks, _⟩ =>
      (⟨ts', .refl _, hts', htasks ▸ htask⟩ :
        ∃ ts'', ts''.Subperm ts' ∧ Does u ((act x.broker).2.activity event) x' ts'')
  rw [Sim.dispatching_eq, Sim.run_bind, hvalue]
  exact hacted.bind fun x' ts' hx' hdoes hown' =>
    Sim.plays_dispatched_asks hasked _ x' ts' _ hx' hdoes hown'

end Replays

/-- A ticket that waits for the listeners of an event has its account. -/
theorem Replays.firing (h : Replays k (some i) x w) {call : EventHub.Call Action}
    (htask : x.tasks u = some ⟨.firing event call, false⟩) :
    ∃ b ended, w.brokers[k]? = some b ∧ x.Orderly ended ∧
      x.broker.Account x.served u (.snapshot event.kind) [] call := by
  obtain ⟨b, hb⟩ := h.found_of_task htask
  obtain ⟨-, -, config, worker, moves, rfl⟩ := h.found b hb
  have horderly := Traffic.orderly_run config worker moves
  exact ⟨b, _, hb, horderly,
    horderly.account (Traffic.inquires_run config worker moves) htask rfl⟩

namespace Sim

theorem plays_check_asks (wait : Wait .report) :
    Plays k i (Asks k event u (.wait wait)) (check wait) fun p => Asks k event u p.future := by
  intro x ts w h hx hown
  obtain ⟨call, rfl, -⟩ := hx.of_wait
  have hlook : Plays k i (Asks k event u (.wait (.asking k event call)))
      (dispatching k (Dispatch.resume · event call)) (Asks k event u) := by
    intro x ts w h hx hown
    obtain ⟨call', heq, rfl, htask⟩ := hx.of_wait
    cases heq
    obtain ⟨b, -, hb, -, -⟩ := h.firing htask
    exact h.dispatching hb hown (Traffic.turn_some htask .goOn)
      (asked_dispatched fun _ => Broker.error_resume)
  have hlisten (wait : Wait .report) :
      Plays k i (Asks k event u (.wait wait)) (listen wait) fun _ =>
        Asks k event u (.wait wait) := by
    intro x ts w h hx hown
    obtain ⟨call, rfl, hdoes⟩ := hx.of_wait
    refine (plays_listen_asking u event call x ts w h hdoes hown).mono ?_
    exact fun x' ts' hdoes' => ⟨ts', .refl _, _, .asking call, hdoes'⟩
  rw [check_asking_eq]
  exact plays_take (local_asks k event u) hlisten (plays_of hlook) x ts w h hx hown

/-- The look that ends the wait of a dispatch has found out what it is told. -/
theorem told_of_look (h : Replays k (some i) x w) {wait : Wait .report} {ts : List Ticket}
    (hx : Asks k event u (.wait wait) x ts) (hnext : ((check wait).run w).1 = .next f) :
    Told k event u x f ∧ ∀ wait, f ≠ .wait wait := by
  obtain ⟨call, rfl, rfl, htask⟩ := hx.of_wait
  obtain ⟨b, ended, hb, horderly, haccount⟩ := h.firing htask
  obtain ⟨rfl, -⟩ := h.found b hb
  obtain ⟨deadline, v, hgoes⟩ := dispatching_fst hb (Dispatch.resume · event call)
  have htold : Told k event u x
      ((dispatched k deadline (Dispatch.resume x.broker event call).2).run v).1 :=
    told_dispatched haccount.resume (fun _ => haccount.isClosed_of_resume horderly.sane) deadline v
  rw [← hgoes] at htold
  rcases take_run (.asking k event call)
    (Polled.of <$> dispatching k (Dispatch.resume · event call)) w with ⟨hlooked, -⟩ | ⟨hlooked, -⟩
  · rw [← check_asking_eq, hnext] at hlooked
    cases hlooked
  · rw [← check_asking_eq, hnext] at hlooked
    change Polled.next f = .of ((dispatching k (Dispatch.resume · event call)).run w).1 at hlooked
    generalize ((dispatching k (Dispatch.resume · event call)).run w).1 = g at htold hlooked
    cases g with
    | wait wait => cases hlooked
    | _ =>
        cases hlooked
        exact ⟨htold, fun _ h => by cases h⟩

/-- A dispatch begins with a new ticket. -/
theorem begin_asks (hF : F.Local) (hx : Holding k i F x w) {b : Broker Action}
    (hb : w.brokers[k]? = some b) :
    ∃ u y z, w.serial ≤ u.serial ∧ Traffic.Later x y ∧ y.Unused u ∧
      Told k event u y ((Sim.begin (.fire k event)).run w).1 ∧ Traffic.Later y z ∧
      Holding k i ((Asks k event u ((Sim.begin (.fire k event)).run w).1).sep F) z
        ((Sim.begin (.fire k event)).run w).2 ∧
      Onward k x w z ((Sim.begin (.fire k event)).run w).2 ∧
      w.serial ≤ ((Sim.begin (.fire k event)).run w).2.serial := by
  let u : Ticket := ⟨w.current, w.serial⟩
  let act (b : Broker Action) : Broker Action × Dispatch.Next Action := Dispatch.start b u event
  obtain ⟨y, tf, hy, hheld, hnone, hown, honward, hserial⟩ := hx.ticket hF
  have hbroker : (ticket.run w).2.brokers[k]? = some b := hb
  have hunused : y.Unused u := (hy.lawful hbroker).unused hnone
  have hturn : y.turn u (.begin (.fire event)) = y.dispatching u event (act y.broker) :=
    Traffic.turn_none hnone _
  obtain ⟨deadline, v, hgoes⟩ := dispatching_fst hbroker act
  obtain ⟨rfl, -⟩ := hy.found b hbroker
  have htold : Told k event u y ((dispatched k deadline (act y.broker).2).run v).1 :=
    told_dispatched (hunused.idle.call hunused.served _) (fun _ => Broker.isClosed_of_call)
      deadline v
  rw [← hgoes] at htold
  obtain ⟨z, _, hgoes', ⟨ti, rfl, hasks, htasks⟩, hown', -⟩ :=
    (hy.dispatching hbroker (hown.sublist (List.sublist_append_left _ tf)) hturn
      (asked_dispatched fun _ => Broker.error_call)).beside hown
  rw [begin_fire_eq]
  exact ⟨u, y, z, Nat.le_refl _, honward.later hx.1 hb, hunused, htold,
    hgoes'.onward.later hy hbroker,
    ⟨hgoes'.replays, _, ⟨ti, tf, rfl, hasks, hF hheld htasks⟩, hown'⟩,
    honward.trans hgoes'.onward, Nat.le_trans hserial hgoes'.serial⟩

end Sim

/-- What a dispatch has come to, with the traffic before it and after it. The registry took its
snapshot in between, and each listener that was committed then was called, in the order of the
commitments; or the broker was closed before that, and nobody was called. -/
inductive Reaches (x x' : Traffic Action) (u : Ticket) (event : Event) :
    Except BrokerError Report → Prop
  | heard (before after : List (Served Action)) (calls : List (Subscription Action × Verdict))
      (hsince : x.served <+: before)
      (htaken : x'.served = before ++ ⟨some u, ⟨.snapshot event.kind, true⟩⟩ :: after)
      (hcalls : calls.map Prod.fst = Served.committed before event.kind)
      (hall : ∀ c ∈ calls, Delivered event c.1 c.2) :
      Reaches x x' u event (.ok ((Report.ofEvent event).afterAll calls))
  | unheard (hclosed : x'.broker.isClosed = true) (hnone : Served.requestsOf x'.served u = [])
      (hlog : x'.deliveries u = []) : Reaches x x' u event (.error .closed)

theorem Reaches.since {y : Traffic Action} {result : Except BrokerError Report}
    (h : Reaches y x' u event result) (hsince : x.served <+: y.served) :
    Reaches x x' u event result := by
  cases h with
  | heard before after calls hbefore htaken hcalls hall =>
      exact .heard before after calls (hsince.trans hbefore) htaken hcalls hall
  | unheard hclosed hnone hlog => exact .unheard hclosed hnone hlog

namespace Performs

variable {least : Nat} {y z : Traffic Action} {w' last mid : World}
  {turns later rest : List (World × World)} {o : Outcome (Except BrokerError Report)}

/-- Once a dispatch was told who listens, or that nobody will tell, it comes to that. -/
theorem reaches_of_told (hF : F.Local)
    (h : Performs (Beside k i F) least mid f ((mid, w') :: later) o)
    (hunused : x.Unused u) (hsince : x.served <+: y.served) (htold : Told k event u y f)
    (hgoes : ∀ wait, f ≠ .wait wait) (hlater : Traffic.Later y z)
    (hz : Holding k i ((Asks k event u f).sep F) z mid)
    (hlast : ((mid, w') :: later).getLast?.map Prod.snd = some last) :
    ∃ result, o = .returned result ∧
      Arrives k i z mid last fun x' ts => F x' ts ∧ Reaches x x' u event result := by
  cases htold with
  | asking call => exact absurd rfl (hgoes _)
  | closed hclosed =>
      obtain ⟨rfl, rfl, rfl⟩ := h.of_ended
      cases hlast
      obtain ⟨hz, ts, ⟨ti, tf, rfl, ⟨next, hasked, rfl, htask⟩, hheld⟩, hown⟩ := hz
      obtain ⟨b, hb⟩ := hz.found_of_task htask
      obtain rfl : next = .finished (.error .closed) := by
        generalize hf : Future.value (a := .report) (.error .closed) = f at hasked
        cases hasked with
        | asking call => cases hf
        | closed => rfl
        | found list hunderway =>
            subst hf
            cases hunderway
      -- what is fired into a closed broker is over, and has called nobody
      have hcourse : Course z.served u event (.fired event (.error .closed)) (z.deliveries u) := by
        rcases (hz.lawful hb).each u with hnever | ⟨event', task, hfound, hfires⟩ | ⟨task, helse⟩
        · cases hnever.none.symm.trans htask
        · obtain rfl := Option.some.inj (hfound.symm.trans htask)
          obtain rfl := Option.some.inj hfires.course.event?
          exact hfires.course
        · obtain rfl := Option.some.inj (helse.found.symm.trans htask)
          cases helse.event
      have hreaches : Reaches x z u event (.error .closed) := by
        generalize hlog : z.deliveries u = log at hcourse
        cases hcourse with
        | closed hserved => exact .unheard (hlater.closed hclosed).1 hserved hlog
      exact ⟨_, rfl, .refl ⟨hz, tf, ⟨hheld, hreaches⟩,
        hown.sublist (List.sublist_append_right [u] tf)⟩⟩
  | listeners before hsnapshot hunderway =>
      obtain ⟨calls, hcalls, hall, rfl⟩ := runs_underway h.runs hunderway
      obtain ⟨b, hb⟩ := hz.found_of_asks
      have hheld : Holding k i (Held.sep (fun x => f.Holds k x) F) z mid := by
        obtain ⟨hz, _, ⟨ti, tf, rfl, hasks, hheld⟩, hown⟩ := hz
        obtain ⟨ts, hsub, hholds⟩ := hasks.holds
        exact ⟨hz, ts ++ tf, ⟨ts, tf, rfl, hholds, hheld⟩,
          hown.sublist (hsub.append (List.Sublist.refl tf))⟩
      obtain ⟨x', ⟨hx', ts, hts, hown⟩, honward, hserial⟩ := h.arrives
        (fun f => (Held.local_future k f).sep hF) (fun n f => (Sim.plays_poll n f).frame hF) hheld
        hlast
      refine ⟨_, rfl, x', ⟨hx', ts, ⟨Held.none_sep hts, ?_⟩, hown⟩, honward, hserial⟩
      obtain ⟨after, hserved, -, -⟩ := hsnapshot
      have hbefore : x.served <+: before :=
        Served.prefix_before (hserved ▸ hsince) rfl hunused.served
      obtain ⟨more, hmore⟩ := (hlater.trans (honward.later hz.1 hb)).served
      exact .heard before (after ++ more) calls hbefore (by simp [← hmore, hserved]) hcalls hall

theorem meanwhile_asks {wait : Wait .report} (h : Beside k i F (.wait wait) v w) :
    Meanwhile k i ((Asks k event u (.wait wait)).sep F) v w := by
  refine Meanwhile.weaken h ?_
  rintro x _ ⟨ti, tf, rfl, hasks, hheld⟩
  obtain ⟨call, rfl, rfl, htask⟩ := hasks.of_wait
  exact ⟨_, tf, rfl, Carries.of_task rfl htask rfl, hheld⟩

/-- A dispatch that has asked for listeners is told some time, or does not end. -/
theorem asks_goes (hF : F.Local)
    (h : Performs (Beside k i F) (least + 1) mid f ((mid, w') :: rest) o) (hunused : x.Unused u)
    (hsince : Traffic.Later x y) (htold : Told k event u y f) (hlater : Traffic.Later y z)
    (hz : Holding k i ((Asks k event u f).sep F) z mid)
    (hlast : ((mid, w') :: rest).getLast?.map Prod.snd = some last) :
    ∃ result, o = .returned result ∧
      Arrives k i z mid last fun x' ts => F x' ts ∧ Reaches x x' u event result := by
  by_cases hwaits : ∃ wait, f = .wait wait
  · obtain ⟨wait, rfl⟩ := hwaits
    obtain ⟨b, hb⟩ := hz.found_of_asks
    have hcheck (wait : Wait .report) : Sim.Plays k i ((Asks k event u (.wait wait)).sep F)
        (Sim.check wait) fun p => (Asks k event u p.future).sep F :=
      (Sim.plays_check_asks wait).frame hF
    obtain ⟨wait', v', x', f', w₁, later, hx', honward, hserial, hnext, hruns, hends⟩ :=
      h.of_look (fun _ _ => .refl _ _) (fun _ _ _ => meanwhile_asks)
        (fun f => (local_asks k event u f).sep hF) hcheck hz
    have hlooked := (hcheck wait').arrives hx'
    rw [hnext] at hlooked
    obtain ⟨b', hb'⟩ := hx'.found_of_asks
    obtain ⟨z', hz', honward', hserial'⟩ := hlooked
    obtain ⟨hreplays, _, ⟨ti, tf, rfl, hasks, -⟩, -⟩ := hx'
    obtain ⟨htold', hgoes⟩ := Sim.told_of_look hreplays hasks hnext
    have hlater' : Traffic.Later x x' := (hsince.trans hlater).trans (honward.later hz.1 hb)
    obtain ⟨result, ho, harrives⟩ := hruns.reaches_of_told hF hunused hlater'.served htold' hgoes
      (honward'.later hreplays hb') hz' ((last_of_suffix hends).trans hlast)
    exact ⟨result, ho, (harrives.after honward' hserial').after honward hserial⟩
  · exact h.reaches_of_told hF hunused hsince.served htold (fun wait hf => hwaits ⟨wait, hf⟩)
      hlater hz hlast

/-- A dispatch among the others: it begins with a ticket of its own, and ends with its report. -/
theorem fires (hF : F.Local) (h : Performs (Beside k i F) 2 v (.begin (.fire k event)) turns o)
    (hfound : ∃ b, v.brokers[k]? = some b) (hx : Holding k i F x v)
    (hlast : turns.getLast?.map Prod.snd = some last) :
    ∃ u result, x.tasks u = none ∧ o = .returned result ∧
      Arrives k i x v last fun x' ts => F x' ts ∧ Reaches x x' u event result := by
  obtain ⟨w, w', rest, rfl, hbegun, x₁, b₁, hx₁, hb₁, honward₁, hlater₁, hserial₁⟩ :=
    h.begins hF (fun _ => ⟨by simp [Begin.discardsAt?], rfl⟩) hfound hx
  obtain ⟨u, y, z, hu, hsince, hunused, htold, hlater, hz, honward₂, hserial₂⟩ :=
    Sim.begin_asks hF hx₁ hb₁
  obtain ⟨result, rfl, harrives⟩ :=
    hbegun.asks_goes hF hunused hsince.last htold hlater hz
      ((last_of_suffix List.suffix_rfl).trans hlast)
  have harrives' : Arrives k i z _ last fun x' ts => F x' ts ∧ Reaches x x' u event result :=
    harrives.mono fun x' ts h =>
      ⟨h.1, h.2.since (hlater₁.trans hsince).served⟩
  exact ⟨u, result, hx.1.new (Nat.le_trans hserial₁ hu), rfl,
    (harrives'.after honward₂ hserial₂).after honward₁ hserial₁⟩

end Performs

end EventHub.Simulation
