import EventHub.Proofs.Broker.Account
import EventHub.Proofs.Registry.Agreement
import EventHub.Proofs.Traffic.Frame

/-!
The course of one dispatch: it waits for its snapshot, then goes through the list
that was committed when the registry took its command, one call after another. The
registry, other tasks and its own turns keep it on that course.
-/

namespace EventHub

variable {L : Type}

/-- What was committed for a kind after these commands. -/
def Served.committed (served : List (Served L)) (kind : EventKind) : List (Subscription L) :=
  (books served).snapshot kind

/-- The key of the table, the stored kind and the kind that the listener was
written for are one and the same. -/
theorem Served.expects_of_committed {served : List (Served L)} {kind : EventKind}
    {s : Subscription L} (h : s ∈ committed served kind) : s.listener.expects = kind := by
  have hsnapshot := (Agrees.of_run (served.map Served.request)).get_table kind
  rw [committed, books, Registry.snapshot, hsnapshot] at h
  obtain ⟨hlog, hkind⟩ := List.mem_filter.mp h
  have hexpects := ((History.sound_of (served.map Served.request)).log_owned s hlog).2
  exact hexpects.trans (of_decide_eq_true hkind)

theorem Dispatch.mismatch?_eq_none {s : Subscription L} {event : Event}
    (h : s.listener.expects = event.kind) : Dispatch.mismatch? s event = none := by
  simp [Dispatch.mismatch?, h]

/-- The snapshot for a dispatch was taken after these commands, and the dispatch
asked for nothing else. -/
def SnapshotAfter (served : List (Served L)) (t : Ticket) (kind : EventKind)
    (before : List (Served L)) : Prop :=
  ∃ after, served = before ++ ⟨some t, ⟨.snapshot kind, true⟩⟩ :: after ∧
    Served.requestsOf before t = [] ∧ Served.requestsOf after t = []

theorem SnapshotAfter.append {served more before : List (Served L)} {t : Ticket}
    {kind : EventKind} (h : SnapshotAfter served t kind before)
    (hmore : ∀ x ∈ more, x.caller ≠ some t) : SnapshotAfter (served ++ more) t kind before := by
  obtain ⟨after, rfl, hbefore, hafter⟩ := h
  refine ⟨after ++ more, by simp, hbefore, ?_⟩
  rw [Served.requestsOf_append_other hmore, hafter]

theorem Answered.snapshot {served : List (Served L)} {t : Ticket} {kind : EventKind}
    {a : Answer L} (h : Answered served t (.snapshot kind) [] a) :
    ∃ before, SnapshotAfter served t kind before ∧
      a = .subscriptions (Served.committed before kind) := by
  obtain ⟨before, after, hserved, hpast, hsince, ha⟩ := h
  refine ⟨before, ⟨after, hserved, hpast, hsince⟩, ?_⟩
  simpa [Registry.serve, Registry.apply, Served.committed, eq_comm] using ha

namespace Delivery

/-- Calls made one after another, with how each of them ended. -/
def rounds (event : Event) (done : List (Subscription L × Verdict)) : List (Delivery L) :=
  done.flatMap fun round => [.called round.1 event, .ended round.1 round.2]

theorem rounds_concat (event : Event) (done : List (Subscription L × Verdict))
    (s : Subscription L) (verdict : Verdict) :
    rounds event (done ++ [(s, verdict)]) =
      rounds event done ++ [.called s event] ++ [.ended s verdict] := by
  simp [rounds]

theorem refused_not_mem_rounds (event : Event) (done : List (Subscription L × Verdict))
    (s : Subscription L) (e : ListenerError) : .refused s e ∉ rounds event done := by
  simp [rounds]

end Delivery

/-- How far a dispatch is, and what has happened on its behalf. -/
inductive Course (served : List (Served L)) (t : Ticket) (event : Event) :
    Activity L → List (Delivery L) → Prop where
  | asking (call : Call L) : Course served t event (.firing event call) []
  | calling (before : List (Served L)) (done : List (Subscription L × Verdict))
      (s : Subscription L) (d : Dispatch L)
      (hsnapshot : SnapshotAfter served t event.kind before) (hevent : d.event = event)
      (hlist : Served.committed before event.kind = done.map Prod.fst ++ s :: d.remaining) :
      Course served t event (.delivering d s) (Delivery.rounds event done ++ [.called s event])
  | finished (before : List (Served L)) (done : List (Subscription L × Verdict))
      (report : Report) (hsnapshot : SnapshotAfter served t event.kind before)
      (hlist : Served.committed before event.kind = done.map Prod.fst) :
      Course served t event (.fired event (.ok report)) (Delivery.rounds event done)
  | closed (hserved : Served.requestsOf served t = []) :
      Course served t event (.fired event (.error .closed)) []

theorem Course.append {served more : List (Served L)} {t : Ticket} {event : Event}
    {a : Activity L} {log : List (Delivery L)} (h : Course served t event a log)
    (hmore : ∀ x ∈ more, x.caller ≠ some t) : Course (served ++ more) t event a log := by
  cases h with
  | asking call => exact .asking call
  | calling before done s d hsnapshot hevent hlist =>
      exact .calling before done s d (hsnapshot.append hmore) hevent hlist
  | finished before done report hsnapshot hlist =>
      exact .finished before done report (hsnapshot.append hmore) hlist
  | closed hserved => exact .closed ((Served.requestsOf_append_other hmore).trans hserved)

theorem Course.not_refused {served : List (Served L)} {t : Ticket} {event : Event}
    {a : Activity L} {log : List (Delivery L)} (h : Course served t event a log)
    (s : Subscription L) (e : ListenerError) : .refused s e ∉ log := by
  cases h with
  | asking call => simp
  | calling before done s' d _ _ _ => simp [Delivery.refused_not_mem_rounds]
  | finished before done report _ _ => exact Delivery.refused_not_mem_rounds _ _ s e
  | closed _ => simp

/-- The event that an activity fires. -/
def Activity.event? : Activity L → Option Event
  | .firing event _ => some event
  | .delivering d _ => some d.event
  | .fired event _ => some event
  | _ => none

theorem Course.event? {served : List (Served L)} {t : Ticket} {event : Event}
    {a : Activity L} {log : List (Delivery L)} (h : Course served t event a log) :
    a.event? = some event := by
  cases h with
  | calling before done s d _ hevent _ => simp [Activity.event?, hevent]
  | _ => rfl

namespace Traffic

/-- A task that fires an event. Once it has its snapshot, nothing is under way
for it at the broker any more. -/
inductive Fires (x : Traffic L) (t : Ticket) (event : Event) : Task L → Prop where
  | asking (call : Call L)
      (haccount : x.broker.Account x.served t (.snapshot event.kind) [] call)
      (hlog : x.deliveries t = []) : Fires x t event ⟨.firing event call, false⟩
  | givenUp (call : Call L) (hlog : x.deliveries t = []) :
      Fires x t event ⟨.firing event call, true⟩
  | answered (a : Activity L) (isGivenUp : Bool) (hticket : a.ticket? = none)
      (hidle : x.broker.Idle t) (hcourse : Course x.served t event a (x.deliveries t)) :
      Fires x t event ⟨a, isGivenUp⟩

theorem Fires.course {x : Traffic L} {t : Ticket} {event : Event} {task : Task L}
    (h : Fires x t event task) : Course x.served t event task.activity (x.deliveries t) := by
  cases h with
  | asking call _ hlog =>
      rw [hlog]
      exact .asking call
  | givenUp call hlog =>
      rw [hlog]
      exact .asking call
  | answered a isGivenUp _ _ hcourse => exact hcourse

def FiresAt (x : Traffic L) (t : Ticket) (event : Event) : Prop :=
  ∃ task, x.tasks t = some task ∧ Fires x t event task

/-- A ticket that was never used. -/
structure Unused (x : Traffic L) (t : Ticket) : Prop where
  none : x.tasks t = none
  idle : x.broker.Idle t
  served : Served.requestsOf x.served t = []
  log : x.deliveries t = []

/-- A task that does not fire calls no listener. -/
structure Elsewhere (x : Traffic L) (t : Ticket) (task : Task L) : Prop where
  found : x.tasks t = some task
  event : task.activity.event? = none
  own : ∀ u ∈ task.activity.ticket?, u = t
  log : x.deliveries t = []

section Others

variable {x x' : Traffic L} {t : Ticket}

theorem Unused.left (h : x.Unused t) (hleaves : Leaves t x x') : x'.Unused t where
  none := hleaves.task.trans h.none
  idle := h.idle.spared hleaves.broker
  served := by rw [hleaves.served, h.served]
  log := hleaves.deliveries.trans h.log

theorem Elsewhere.left {task : Task L} (h : x.Elsewhere t task) (hleaves : Leaves t x x') :
    x'.Elsewhere t task where
  found := hleaves.task.trans h.found
  event := h.event
  own := h.own
  log := hleaves.deliveries.trans h.log

theorem FiresAt.left {event : Event} (h : x.FiresAt t event) (hleaves : Leaves t x x') :
    x'.FiresAt t event := by
  obtain ⟨task, htask, hfires⟩ := h
  refine ⟨task, hleaves.task.trans htask, ?_⟩
  cases hfires with
  | asking call haccount hlog =>
      refine .asking call ?_ (hleaves.deliveries.trans hlog)
      rw [hleaves.served]
      exact haccount.spared hleaves.broker
  | givenUp call hlog => exact .givenUp call (hleaves.deliveries.trans hlog)
  | answered a isGivenUp hticket hidle hcourse =>
      refine .answered a isGivenUp hticket (hidle.spared hleaves.broker) ?_
      rw [hleaves.served, hleaves.deliveries]
      exact hcourse

end Others

section Work

variable {x : Traffic L} {t : Ticket}

theorem Unused.worked (h : x.Unused t) : (x.step .work).Unused t where
  none := h.none
  idle := h.idle.step.flush
  served := by
    obtain ⟨-, -, hserving⟩ := Broker.serving_of_queue_nil h.idle.queue
    exact (Served.requestsOf_append_other hserving).trans h.served
  log := h.log

theorem Elsewhere.worked {task : Task L} (h : x.Elsewhere t task) :
    (x.step .work).Elsewhere t task := ⟨h.found, h.event, h.own, h.log⟩

/-- The registry takes the command of the dispatch, or something that does not
concern it. -/
theorem FiresAt.worked {event : Event} (h : x.FiresAt t event)
    (hbooks : x.broker.registry = Served.books x.served) : (x.step .work).FiresAt t event := by
  obtain ⟨task, htask, hfires⟩ := h
  refine ⟨task, htask, ?_⟩
  cases hfires with
  | asking call haccount hlog => exact .asking call (haccount.step trivial hbooks).flush hlog
  | givenUp call hlog => exact .givenUp call hlog
  | answered a isGivenUp hticket hidle hcourse =>
      obtain ⟨-, -, hserving⟩ := Broker.serving_of_queue_nil hidle.queue
      exact .answered a isGivenUp hticket hidle.step.flush (hcourse.append hserving)

end Work

section Own

variable {x : Traffic L} {t : Ticket} {event : Event}

/-- The dispatch goes to the next listener of its list. -/
theorem firesAt_advance {before : List (Served L)} {done : List (Subscription L × Verdict)}
    {b : Broker L} {d : Dispatch L} (hidle : b.Idle t)
    (hsnapshot : SnapshotAfter x.served t event.kind before) (hevent : d.event = event)
    (hlist : Served.committed before event.kind = done.map Prod.fst ++ d.remaining)
    (hlog : x.deliveries t = Delivery.rounds event done) :
    (x.dispatching t event (Dispatch.advance b d)).FiresAt t event := by
  have hspares : Broker.Spares t b (Dispatch.advance b d).1 := Dispatch.spares_advance b d
  have hidle' := (hidle.spared hspares).flush
  cases hremaining : d.remaining with
  | nil =>
      rw [Dispatch.advance, hremaining] at hidle' ⊢
      refine ⟨_, put_tasks _ _ _ _, .answered _ _ rfl hidle' ?_⟩
      rw [hremaining, List.append_nil] at hlist
      have hcourse := Course.finished before done d.report hsnapshot hlist
      rw [← hlog] at hcourse
      exact hcourse
  | cons s rest =>
      rw [Dispatch.advance, hremaining] at hidle' ⊢
      rw [hremaining] at hlist
      have hmem : s ∈ Served.committed before event.kind := by simp [hlist]
      have hexpects := Served.expects_of_committed hmem
      have hcall : delivery s d.event = .called s event := by
        rw [delivery, Dispatch.mismatch?_eq_none (hexpects.trans (hevent ▸ rfl)), hevent]
      have hcourse := Course.calling before done s { d with remaining := rest } hsnapshot
        hevent hlist
      rw [← hlog, ← hcall] at hcourse
      refine ⟨_, put_tasks x t b _, .answered _ _ rfl hidle' ?_⟩
      simp only [dispatching, deliveries_note, put_deliveries]
      exact hcourse

/-- The dispatch still waits for its snapshot, or goes on with it. -/
theorem firesAt_asked {p : Broker L × Called L}
    (hprogress : p.1.Progress x.served t (.snapshot event.kind) [] p.2)
    (hlog : x.deliveries t = []) :
    (x.dispatching t event (Dispatch.asked event p)).FiresAt t event := by
  obtain ⟨b, called⟩ := p
  cases hprogress with
  | suspended call haccount => exact ⟨_, put_tasks _ _ _ _, .asking call haccount.flush hlog⟩
  | answered a hidle hanswer =>
      obtain ⟨before, hsnapshot, rfl⟩ := hanswer.snapshot
      have hlist : Served.committed before event.kind =
          ([] : List (Subscription L × Verdict)).map Prod.fst ++
            Served.committed before event.kind := rfl
      exact firesAt_advance hidle hsnapshot rfl hlist hlog
  | closed hidle hpast =>
      refine ⟨_, put_tasks _ _ _ _, .answered _ _ rfl hidle.flush ?_⟩
      have hcourse : Course x.served t event (.fired event (.error .closed)) [] := .closed hpast
      rw [← hlog] at hcourse
      exact hcourse

theorem firesAt_start (h : x.Unused t) (event : Event) :
    (x.start t (.fire event)).FiresAt t event :=
  firesAt_asked (h.idle.call h.served _) h.log

/-- One listener of the dispatch has ended. -/
theorem firesAt_ended {before : List (Served L)} {done : List (Subscription L × Verdict)}
    {d : Dispatch L} {s : Subscription L} (hidle : x.broker.Idle t)
    (hsnapshot : SnapshotAfter x.served t event.kind before) (hevent : d.event = event)
    (hlist : Served.committed before event.kind = done.map Prod.fst ++ s :: d.remaining)
    (hlog : x.deliveries t = Delivery.rounds event done ++ [.called s event])
    (verdict : Verdict) :
    (x.listenerEnded t verdict (.delivering d s)).FiresAt t event := by
  have hmem : s ∈ Served.committed before event.kind := by simp [hlist]
  have hexpects := Served.expects_of_committed hmem
  have hmatch : Dispatch.mismatch? s d.event = none :=
    Dispatch.mismatch?_eq_none (hexpects.trans (hevent ▸ rfl))
  have hsettle : (Dispatch.settle x.broker d s verdict).2.event = d.event ∧
      (Dispatch.settle x.broker d s verdict).2.remaining = d.remaining := by
    rw [Dispatch.settle]
    split <;> exact ⟨rfl, rfl⟩
  have hidle' : (Dispatch.settle x.broker d s verdict).1.Idle t :=
    hidle.spared (Dispatch.spares_settle x.broker d s verdict)
  have hdone : Served.committed before event.kind =
      (done ++ [(s, verdict)]).map Prod.fst ++
        (Dispatch.settle x.broker d s verdict).2.remaining := by
    simp [hlist, hsettle.2]
  have hlog' : (x.note t (.ended s verdict)).deliveries t =
      Delivery.rounds event (done ++ [(s, verdict)]) := by
    rw [deliveries_note, hlog, Delivery.rounds_concat]
  have hnext := firesAt_advance (x := x.note t (.ended s verdict)) hidle' hsnapshot
    (hsettle.1.trans hevent) hdone hlog'
  simp only [listenerEnded, hmatch]
  rw [hevent]
  exact hnext

end Own

end Traffic

end EventHub
