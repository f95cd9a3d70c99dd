import EventHub.Proofs.Traffic.Course
import Mathlib.Data.List.Induction

/-!
Snapshot isolation. In every interleaving of turns, a dispatch calls the
subscriptions that were committed when the registry took its command, each once
and in commit order. Nothing that happens later adds a call or removes one, and no
listener is ever asked to take an event of another kind.
-/

namespace EventHub.Traffic

variable {L : Type} {x : Traffic L} {t : Ticket}

theorem FiresAt.turn {event : Event} (h : x.FiresAt t event) (turn : Turn L) :
    (x.turn t turn).FiresAt t event := by
  obtain ⟨task, htask, hfires⟩ := h
  have hkept : x.FiresAt t event := ⟨task, htask, hfires⟩
  cases hfires with
  | asking call haccount hlog =>
      simp only [Traffic.turn, htask]
      cases turn with
      | goOn => exact firesAt_asked haccount.resume hlog
      | giveUp => exact ⟨_, leave_tasks _ _ _ _, .givenUp call hlog⟩
      | _ => exact hkept
  | givenUp call hlog =>
      simp only [Traffic.turn, htask]
      exact hkept
  | answered a isGivenUp hticket hidle hcourse =>
      cases isGivenUp with
      | true =>
          simp only [Traffic.turn, htask]
          exact hkept
      | false =>
          simp only [Traffic.turn, htask]
          generalize hlog : x.deliveries t = log at hcourse
          cases hcourse with
          | asking call => cases hticket
          | calling before done s d hsnapshot hevent hlist =>
              cases turn with
              | listenerEnded verdict =>
                  exact firesAt_ended hidle hsnapshot hevent hlist hlog verdict
              | giveUp =>
                  have hcourse := Course.calling before done s d hsnapshot hevent hlist
                  rw [← hlog] at hcourse
                  exact ⟨_, leave_tasks _ _ _ _, .answered _ _ rfl hidle.flush hcourse⟩
              | _ => exact hkept
          | finished before done report hsnapshot hlist => cases turn <;> exact hkept
          | closed hserved => cases turn <;> exact hkept

section Elsewhere

theorem elsewhere_put {b : Broker L} {a : Activity L} (hevent : a.event? = none)
    (hown : ∀ u ∈ a.ticket?, u = t) (hlog : x.deliveries t = []) :
    (x.put t b a).Elsewhere t { activity := a } :=
  ⟨put_tasks _ _ _ _, hevent, hown, hlog⟩

theorem elsewhere_leave {b : Broker L} {a : Activity L} (hevent : a.event? = none)
    (hown : ∀ u ∈ a.ticket?, u = t) (hlog : x.deliveries t = []) :
    (x.leave t b a).Elsewhere t { activity := a, isGivenUp := true } :=
  ⟨leave_tasks _ _ _ _, hevent, hown, hlog⟩

theorem elsewhere_registering (name : String) {r : Registration.Result L}
    (hown : ∀ u ∈ r.next.ticket?, u = t) (hlog : x.deliveries t = []) :
    ∃ task, (x.registering t name r).Elsewhere t task := by
  obtain ⟨b, next, orphan⟩ := r
  cases next with
  | suspended stage =>
      have hput := elsewhere_put (b := b) (a := .registering name stage) rfl hown hlog
      exact ⟨_, hput.left (.orphaned _ orphan)⟩
  | setUp owner handle =>
      have hput := elsewhere_put (b := b) (a := .registering name (.settingUp owner handle)) rfl
        hown hlog
      exact ⟨_, hput.left (.orphaned _ orphan)⟩
  | finished result =>
      have hput := elsewhere_put (b := b) (a := .registered name result) rfl
        (by simp [Activity.ticket?]) hlog
      exact ⟨_, hput.left (.orphaned _ orphan)⟩

theorem elsewhere_subscribing (service : Handle) (listener : Listener L)
    {p : Broker L × Called L} (hown : ∀ u ∈ p.2.ticket?, u = t) (hlog : x.deliveries t = []) :
    ∃ task, (x.subscribing t service listener p).Elsewhere t task := by
  obtain ⟨b, called⟩ := p
  cases called with
  | suspended call => exact ⟨_, elsewhere_put rfl hown hlog⟩
  | finished result => exact ⟨_, elsewhere_put rfl (by simp [Activity.ticket?]) hlog⟩

theorem elsewhere_listing {p : Broker L × Called L} (hown : ∀ u ∈ p.2.ticket?, u = t)
    (hlog : x.deliveries t = []) : ∃ task, (x.listing t p).Elsewhere t task := by
  obtain ⟨b, called⟩ := p
  cases called with
  | suspended call => exact ⟨_, elsewhere_put rfl hown hlog⟩
  | finished result => exact ⟨_, elsewhere_put rfl (by simp [Activity.ticket?]) hlog⟩

theorem elsewhere_posting (id : ServiceId) (p : Mailbox (Envelope L) × Mailbox.Posted)
    (hlog : x.deliveries t = []) : ∃ task, (x.posting t id p).Elsewhere t task := by
  obtain ⟨mailbox, posted⟩ := p
  cases posted <;> exact ⟨_, elsewhere_put rfl (by simp [Activity.ticket?]) hlog⟩

/-- What another call than a dispatch begins, or goes on with, calls no listener. -/
theorem Elsewhere.goOn {task : Task L} (h : x.Elsewhere t task) :
    ∃ task', (x.goOn t task.activity).Elsewhere t task' := by
  obtain ⟨a, isGivenUp⟩ := task
  have hown := h.own
  have hevent := h.event
  cases a with
  | registering name stage =>
      refine elsewhere_registering name ?_ h.log
      intro u hu
      exact (Registration.ticket_resume _ _ u hu).trans (hown _ rfl)
  | subscribing service listener call =>
      refine elsewhere_subscribing service listener ?_ h.log
      intro u hu
      exact (Broker.ticket_resume _ _ u hu).trans (hown _ rfl)
  | listing call =>
      refine elsewhere_listing ?_ h.log
      intro u hu
      exact (Broker.ticket_resume _ _ u hu).trans (hown _ rfl)
  | discarding id => exact elsewhere_posting id _ h.log
  | firing event call => cases hevent
  | delivering d s => cases hevent
  | fired event result => cases hevent
  | registered name result => exact ⟨_, h⟩
  | subscribed service listener result => exact ⟨_, h⟩
  | listed result => exact ⟨_, h⟩
  | discarded id => exact ⟨_, h⟩

theorem Elsewhere.setUpEnded {task : Task L} (h : x.Elsewhere t task)
    (outcome : Outcome (Except ServiceError Unit)) :
    ∃ task', (x.setUpEnded t outcome task.activity).Elsewhere t task' := by
  obtain ⟨a, isGivenUp⟩ := task
  have hown := h.own
  cases a with
  | registering name stage =>
      cases stage with
      | settingUp owner handle =>
          refine elsewhere_registering name ?_ h.log
          intro u hu
          exact (Registration.ticket_setUpEnded _ _ _ _ u hu).trans (hown _ rfl)
      | _ => exact ⟨_, h⟩
  | _ => exact ⟨_, h⟩

theorem Elsewhere.giveUp {task : Task L} (h : x.Elsewhere t task) :
    ∃ task', (x.giveUp t task.activity).Elsewhere t task' := by
  obtain ⟨a, isGivenUp⟩ := task
  have hevent := h.event
  cases a with
  | registering name stage =>
      have hleave := elsewhere_leave (b := (Registration.giveUp x.broker stage).1) rfl h.own h.log
      exact ⟨_, hleave.left (.orphaned _ _)⟩
  | subscribing service listener call => exact ⟨_, elsewhere_leave rfl h.own h.log⟩
  | listing call => exact ⟨_, elsewhere_leave rfl h.own h.log⟩
  | firing event call => cases hevent
  | delivering d s => cases hevent
  | _ => exact ⟨_, h⟩

theorem Elsewhere.turn {task : Task L} (h : x.Elsewhere t task) (turn : Turn L) :
    ∃ task', (x.turn t turn).Elsewhere t task' := by
  obtain ⟨a, isGivenUp⟩ := task
  cases isGivenUp with
  | true =>
      simp only [Traffic.turn, h.found]
      exact ⟨_, h⟩
  | false =>
      simp only [Traffic.turn, h.found]
      cases turn with
      | begin s => exact ⟨_, h⟩
      | goOn => exact h.goOn
      | listenerEnded verdict =>
          have hevent := h.event
          cases a with
          | delivering d s => cases hevent
          | _ => exact ⟨_, h⟩
      | setUpEnded outcome => exact h.setUpEnded outcome
      | giveUp => exact h.giveUp

end Elsewhere

/-- A ticket begins with something, or stays unused. -/
theorem Unused.turn (h : x.Unused t) (turn : Turn L) :
    (x.turn t turn).Unused t ∨ (∃ event, (x.turn t turn).FiresAt t event) ∨
      ∃ task, (x.turn t turn).Elsewhere t task := by
  cases turn with
  | begin s =>
      simp only [Traffic.turn, h.none]
      cases s with
      | fire event => exact Or.inr (Or.inl ⟨event, firesAt_start h event⟩)
      | register name =>
          exact Or.inr (Or.inr (elsewhere_registering name (Registration.ticket_start _ t name)
            h.log))
      | subscribe service listener =>
          exact Or.inr (Or.inr (elsewhere_subscribing service listener
            (Broker.ticket_call _ t _) h.log))
      | list => exact Or.inr (Or.inr (elsewhere_listing (Broker.ticket_call _ t _) h.log))
      | discard id =>
          simp only [Traffic.start]
          split
          · exact Or.inr (Or.inr ⟨_, elsewhere_put rfl (by simp [Activity.ticket?]) h.log⟩)
          · exact Or.inl h
  | _ =>
      simp only [Traffic.turn, h.none]
      exact Or.inl h

/-- The registry holds what it was asked, and every ticket is somewhere. -/
structure Lawful (x : Traffic L) : Prop where
  books : x.broker.registry = Served.books x.served
  each : ∀ t, x.Unused t ∨ (∃ event, x.FiresAt t event) ∨ ∃ task, x.Elsewhere t task

theorem Lawful.owned (h : x.Lawful) : x.Owned := by
  intro t a ha u hu
  rcases h.each t with hunused | ⟨event, task, htask, hfires⟩ | ⟨task, helsewhere⟩
  · cases hunused.none.symm.trans ha
  · obtain rfl := Option.some.inj (htask.symm.trans ha)
    cases hfires with
    | asking call haccount hlog =>
        obtain rfl := Option.some.inj hu
        exact haccount.ticket
    | answered _ _ hticket _ _ => cases hticket.symm.trans hu
  · obtain rfl := Option.some.inj (helsewhere.found.symm.trans ha)
    exact helsewhere.own u hu

/-- A dispatch whose listener runs is on its course. -/
theorem Lawful.course (h : x.Lawful) {d : Dispatch L} {s : Subscription L} {isGivenUp : Bool}
    (htask : x.tasks t = some ⟨.delivering d s, isGivenUp⟩) :
    Course x.served t d.event (.delivering d s) (x.deliveries t) := by
  rcases h.each t with hunused | ⟨event, task, hfound, hfires⟩ | ⟨task, helsewhere⟩
  · cases hunused.none.symm.trans htask
  · obtain rfl := Option.some.inj (hfound.symm.trans htask)
    have hcourse := hfires.course
    obtain rfl : d.event = event := Option.some.inj hcourse.event?
    exact hcourse
  · obtain rfl := Option.some.inj (helsewhere.found.symm.trans htask)
    cases helsewhere.event

/-- The listener was written for the kind of its event. -/
theorem Lawful.mismatch? (h : x.Lawful) {d : Dispatch L} {s : Subscription L} {isGivenUp : Bool}
    (htask : x.tasks t = some ⟨.delivering d s, isGivenUp⟩) :
    Dispatch.mismatch? s d.event = none := by
  have hcourse := h.course htask
  generalize x.deliveries t = log at hcourse
  cases hcourse with
  | calling before done s d _ _ hlist =>
      have hmem : s ∈ Served.committed before d.event.kind := by simp [hlist]
      exact Dispatch.mismatch?_eq_none (Served.expects_of_committed hmem)

theorem FiresAt.step (h : x.Lawful) {event : Event} (hfires : x.FiresAt t event) (m : Move L) :
    (x.step m).FiresAt t event := by
  cases m with
  | task u turn =>
      by_cases heq : u = t
      · subst heq
        exact hfires.turn turn
      · exact hfires.left (leaves_turn h.owned (Ne.symm heq) turn)
  | work => exact hfires.worked h.books
  | close => exact hfires.left (.close x)

theorem Elsewhere.step (h : x.Lawful) {task : Task L} (helsewhere : x.Elsewhere t task)
    (m : Move L) : ∃ task', (x.step m).Elsewhere t task' := by
  cases m with
  | task u turn =>
      by_cases heq : u = t
      · subst heq
        exact helsewhere.turn turn
      · exact ⟨_, helsewhere.left (leaves_turn h.owned (Ne.symm heq) turn)⟩
  | work => exact ⟨_, helsewhere.worked⟩
  | close => exact ⟨_, helsewhere.left (.close x)⟩

theorem Unused.step (h : x.Lawful) (hunused : x.Unused t) (m : Move L) :
    (x.step m).Unused t ∨ (∃ event, (x.step m).FiresAt t event) ∨
      ∃ task, (x.step m).Elsewhere t task := by
  cases m with
  | task u turn =>
      by_cases heq : u = t
      · subst heq
        exact hunused.turn turn
      · exact Or.inl (hunused.left (leaves_turn h.owned (Ne.symm heq) turn))
  | work => exact Or.inl hunused.worked
  | close => exact Or.inl (hunused.left (.close x))

theorem Lawful.step (h : x.Lawful) (m : Move L) : (x.step m).Lawful := by
  refine ⟨?books, ?each⟩
  case books =>
    cases m with
    | task u turn =>
        obtain ⟨hregistry, hserved, -⟩ := books_turn h.owned u turn
        rw [Traffic.step, hregistry, hserved, h.books]
    | work =>
        have hregistry := x.broker.registry_step
        rw [h.books, Served.books, ← Registry.run_append, ← List.map_append] at hregistry
        exact hregistry
    | close => exact (Broker.Spares.close x.broker (t := ⟨0, 0⟩)).registry.trans h.books
  case each =>
    intro t
    rcases h.each t with hunused | ⟨event, hfires⟩ | ⟨task, helsewhere⟩
    · exact hunused.step h m
    · exact Or.inr (Or.inl ⟨event, hfires.step h m⟩)
    · exact Or.inr (Or.inr (helsewhere.step h m))

theorem lawful_run (config : Config) (worker : Ticket) (moves : List (Move L)) :
    (run config worker moves).Lawful := by
  induction moves using List.reverseRecOn with
  | nil => exact ⟨rfl, fun t => Or.inl ⟨rfl, ⟨rfl, rfl⟩, rfl, rfl⟩⟩
  | append_singleton moves m ih =>
      rw [run_concat]
      exact ih.step m

theorem FiresAt.foldl (h : x.Lawful) {event : Event} (hfires : x.FiresAt t event)
    (moves : List (Move L)) : (moves.foldl Traffic.step x).FiresAt t event := by
  induction moves generalizing x with
  | nil => exact hfires
  | cons m rest ih => exact ih (h.step m) (hfires.step h m)

/-- A ticket without a task was never used. -/
theorem Lawful.unused (h : x.Lawful) (hnone : x.tasks t = none) : x.Unused t := by
  rcases h.each t with hunused | ⟨event, task, htask, -⟩ | ⟨task, helsewhere⟩
  · exact hunused
  · cases hnone.symm.trans htask
  · cases hnone.symm.trans helsewhere.found

/-- What holds after these moves, whatever they are. -/
structure Isolated (config : Config) (worker : Ticket) (moves : List (Move L)) : Prop where
  /-- A dispatch has called a part of the list that was committed when the registry took
  its command, one after another, and when it has its report, all of it. -/
  course : ∀ before t event later, moves = before ++ .task t (.begin (.fire event)) :: later →
    (run config worker before).tasks t = none →
    ∃ task, (run config worker moves).tasks t = some task ∧
      Course (run config worker moves).served t event task.activity
        ((run config worker moves).deliveries t)
  /-- The books are those of the commands that were taken. -/
  books : (run config worker moves).broker.registry = Served.books (run config worker moves).served
  /-- Only dispatches call listeners, and none is called for another kind of event. -/
  log : ∀ t d, (t, d) ∈ (run config worker moves).log →
    (∃ task event, (run config worker moves).tasks t = some task ∧
      task.activity.event? = some event) ∧ ∀ s e, d ≠ .refused s e

/-- Whatever the interleaving, every dispatch is on its course. -/
theorem isolated (config : Config) (worker : Ticket) (moves : List (Move L)) :
    Isolated config worker moves := by
  have h := lawful_run config worker moves
  refine ⟨?course, h.books, ?log⟩
  case course =>
    intro before t event later hmoves hnone
    have hbefore := lawful_run config worker before
    have hstart : ((run config worker before).step (.task t (.begin (.fire event)))).FiresAt t
        event := by
      simp only [Traffic.step, Traffic.turn, hnone]
      exact firesAt_start (hbefore.unused hnone) event
    obtain ⟨task, htask, hfires⟩ := hstart.foldl (hbefore.step _) later
    have hrun : run config worker moves = later.foldl Traffic.step
        ((run config worker before).step (.task t (.begin (.fire event)))) := by
      rw [hmoves, run_append, List.foldl_cons]
    rw [hrun]
    exact ⟨task, htask, hfires.course⟩
  case log =>
    intro t d hd
    have hmem : d ∈ (run config worker moves).deliveries t :=
      List.mem_map.mpr ⟨(t, d), List.mem_filter.mpr ⟨hd, by simp⟩, rfl⟩
    rcases h.each t with hunused | ⟨event, task, htask, hfires⟩ | ⟨task, helsewhere⟩
    · rw [hunused.log] at hmem
      cases hmem
    · refine ⟨⟨task, event, htask, hfires.course.event?⟩, ?_⟩
      rintro s e rfl
      exact hfires.course.not_refused s e hmem
    · rw [helsewhere.log] at hmem
      cases hmem

end EventHub.Traffic
