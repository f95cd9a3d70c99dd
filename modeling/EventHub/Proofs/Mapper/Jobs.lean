import EventHub.Proofs.Simulation.Step
import EventHub.Proofs.Stores.Reach
import EventHub.Scenario
import Mathlib.Data.List.TakeWhile

/-!
The jobs that an added file gives rise to. The mapper asks its factories one after another,
and each that accepts the file has its job before the next one is asked. So a factory that
breaks off leaves the jobs of those before it alone, and keeps those after it from being asked.
-/

namespace EventHub

namespace Mapper

variable {P : Type} (file : Entry) (content : Bytes)

/-- The factory says whether it accepts the file. -/
def Factory.answers (f : Factory P) : Bool :=
  match f.wants file content with
  | .returned _ => true
  | .panicked _ => false

/-- The factory says that it accepts the file. -/
def Factory.accepts (f : Factory P) : Bool :=
  match f.wants file content with
  | .returned wanted => wanted
  | .panicked _ => false

/-- What breaks off the factory when it is asked. -/
def Factory.breaksOff? (f : Factory P) : Option Payload :=
  match f.wants file content with
  | .returned _ => none
  | .panicked payload => some payload

/-- The factories that accept the file, of those before any that breaks off. -/
def accepting (fs : List (Factory P)) : List (Factory P) :=
  (fs.takeWhile (·.answers file content)).filter (·.accepts file content)

/-- What breaks off the first factory that has no answer. -/
def brokenBy (fs : List (Factory P)) : Option Payload := fs.findSome? (·.breaksOff? file content)

theorem scheduled_eq (fs : List (Factory P)) :
    scheduled file content fs = (accepting file content fs, brokenBy file content fs) := by
  induction fs with
  | nil => rfl
  | cons f rest ih =>
      rw [scheduled, accepting, brokenBy, List.takeWhile_cons, List.findSome?_cons,
        Factory.answers, Factory.breaksOff?]
      cases hwants : f.wants file content with
      | panicked payload => rfl
      | returned wanted =>
          simp only [ih, if_true, List.filter_cons, Factory.accepts, hwants]
          rfl

variable {file content} {fs before rest : List (Factory P)} {f : Factory P} {payload : Payload}

theorem answers_iff : f.answers file content = true ↔ f.breaksOff? file content = none := by
  rw [Factory.answers, Factory.breaksOff?]
  cases f.wants file content <;> simp

/-- Where every factory has an answer, all that accept the file are chosen. -/
theorem accepting_of_answers (h : ∀ f ∈ fs, f.answers file content = true) :
    accepting file content fs = fs.filter (·.accepts file content) := by
  rw [accepting, List.takeWhile_eq_self_iff.mpr h]

theorem brokenBy_eq_none_iff :
    brokenBy file content fs = none ↔ ∀ f ∈ fs, f.answers file content = true := by
  simp only [brokenBy, List.findSome?_eq_none_iff, answers_iff]

/-- Those before the first that breaks off are chosen as if it was not there, and those
after it are not chosen at all. -/
theorem accepting_of_broken (hbefore : ∀ f ∈ before, f.answers file content = true)
    (hf : f.wants file content = .panicked payload) :
    accepting file content (before ++ f :: rest) = before.filter (·.accepts file content) ∧
      brokenBy file content (before ++ f :: rest) = some payload := by
  have hsilent : f.answers file content = false := by rw [Factory.answers, hf]
  have hbroken : f.breaksOff? file content = some payload := by rw [Factory.breaksOff?, hf]
  constructor
  · rw [accepting, List.takeWhile_append_of_pos hbefore, List.takeWhile_cons, hsilent]
    simp
  · have hnone : before.findSome? (·.breaksOff? file content) = none := by
      simpa only [brokenBy] using brokenBy_eq_none_iff.mpr hbefore
    rw [brokenBy, List.findSome?_append, hnone, List.findSome?_cons, hbroken]
    rfl

end Mapper

namespace Simulation

/-- The job that maps a file, after so many others. -/
def mappingJob (file : Entry) (others : Nat) (f : Mapper.Factory Plugin) : Job :=
  { id := ⟨others + 1⟩, name := Mapper.jobName f file }

/-- The task of that job. -/
def mappingTask (file : Entry) (content : Bytes) (others : Nat) (f : Mapper.Factory Plugin) :
    Task :=
  { running := .job ⟨others + 1⟩ (.begin (.task ⟨others + 1⟩
      (.blocking (.mapFile f.name f.plugin file content))))
    isQueued := true }

/-- The world with a job for each of these factories, in their order. -/
def World.withMappings (w : World) (file : Entry) (content : Bytes)
    (fs : List (Mapper.Factory Plugin)) : World :=
  { w with
    records := w.records ++ fs.map (Mapper.scheduleRecord · file)
    pool := { w.pool with
      jobs := w.pool.jobs ++ fs.mapIdx fun k => mappingJob file (w.pool.jobs.length + k) }
    tasks := w.tasks ++
      (fs.mapIdx fun k => mappingTask file content (w.pool.jobs.length + k)).toArray
    ready := w.ready ++ List.range' w.tasks.size fs.length }

/-- The job of the first comes before those of the others. -/
theorem World.withMappings_cons (w : World) (file : Entry) (content : Bytes)
    (f : Mapper.Factory Plugin) (rest : List (Mapper.Factory Plugin)) :
    w.withMappings file content (f :: rest) =
      (w.withMappings file content [f]).withMappings file content rest := by
  have hnumber (k : Nat) : w.pool.jobs.length + (k + 1) =
      (w.pool.jobs ++ [mappingJob file w.pool.jobs.length f]).length + k := by
    rw [List.length_append, List.length_singleton]
    omega
  have htasks (task : Task) (tasks : List Task) :
      w.tasks ++ (task :: tasks).toArray = w.tasks ++ [task].toArray ++ tasks.toArray := by
    apply Array.ext'
    simp
  have hplace (task : Task) : w.tasks.size + 1 = (w.tasks ++ [task].toArray).size := by
    rw [Array.size_append]
    rfl
  simp only [withMappings, List.mapIdx_cons, List.mapIdx_nil, List.map_cons, List.map_nil,
    Nat.add_zero, List.length_cons, List.length_nil, List.range'_succ,
    List.range'_zero, List.append_assoc, List.cons_append, List.nil_append]
  congr 1
  case e_pool => simp only [hnumber]
  case e_tasks => simp only [htasks _ (List.mapIdx _ _), hnumber]
  case e_ready => rw [hplace]

namespace Sim

variable {w : World} {file : Entry} {content : Bytes}

/-- The pool is asked, and has nothing to pass on. -/
theorem onPool_silent {α : Type} {act : Pool → Pool × α} (hsilent : (act w.pool).1.outbox = {}) :
    (onPool act).run w = ((act w.pool).2, { w with pool := (act w.pool).1 }) := by
  have hrun : (onPool act).run w =
      ((act w.pool).2, ((wakeAll (act w.pool).1.outbox.wakes).run
        { w with
          pool := { (act w.pool).1 with outbox := {} }
          records := w.records ++ (act w.pool).1.outbox.records }).2) := rfl
  have hpool : { (act w.pool).1 with outbox := {} } = (act w.pool).1 := by rw [← hsilent]
  rw [hrun, hsilent, hpool, List.append_nil]
  rfl

/-- A job is submitted: its task stands in line. -/
theorem submit_run (hsent : w.pool.outbox = {}) (name : String) (body : JobBody) :
    (submit name body).run w =
      (⟨w.pool.jobs.length + 1⟩,
        { w with
          pool := (w.pool.submit name).1
          tasks := w.tasks.push
            { running := .job ⟨w.pool.jobs.length + 1⟩
                (.begin (.task ⟨w.pool.jobs.length + 1⟩ body))
              isQueued := true }
          ready := w.ready ++ [w.tasks.size] }) := by
  have hasked : (onPool (·.submit name)).run w =
      (⟨w.pool.jobs.length + 1⟩, { w with pool := (w.pool.submit name).1 }) :=
    onPool_silent hsent
  rw [submit, run_bind, hasked]
  rfl

/-- One factory after another gets its job. -/
theorem forIn_mappings (hsent : w.pool.outbox = {}) (fs : List (Mapper.Factory Plugin)) :
    (forIn fs PUnit.unit fun f _ => do
      write (Mapper.scheduleRecord f file)
      let _ ← submit (Mapper.jobName f file) (.blocking (.mapFile f.name f.plugin file content))
      pure (ForInStep.yield PUnit.unit) : Sim PUnit).run w =
      (PUnit.unit, w.withMappings file content fs) := by
  induction fs generalizing w with
  | nil =>
      rw [List.forIn_nil, World.withMappings]
      simp
      rfl
  | cons f rest ih =>
      let written : World := { w with records := w.records ++ [Mapper.scheduleRecord f file] }
      have hwritten : written.pool.outbox = {} := hsent
      have hfirst : (submit (Mapper.jobName f file)
          (.blocking (.mapFile f.name f.plugin file content))).run written =
          (⟨w.pool.jobs.length + 1⟩, w.withMappings file content [f]) := by
        rw [submit_run hwritten, Array.push_eq_append]
        rfl
      have hgiven : (w.withMappings file content [f]).pool.outbox = {} := hsent
      have hwrite : (write (Mapper.scheduleRecord f file)).run w = ((), written) := rfl
      rw [List.forIn_cons, World.withMappings_cons, ← ih hgiven, run_bind, run_bind, hwrite,
        run_bind, hfirst]
      rfl

theorem scheduleMappings_run (hsent : w.pool.outbox = {}) :
    (scheduleMappings file content).run w =
      (((Mapper.accepting file content w.mapper.factories).length,
          Mapper.brokenBy file content w.mapper.factories),
        w.withMappings file content (Mapper.accepting file content w.mapper.factories)) := by
  have hget : (get : Sim World).run w = (w, w) := rfl
  rw [scheduleMappings, run_bind, hget]
  simp only [Mapper.scheduled_eq]
  rw [run_bind, forIn_mappings hsent]
  rfl

theorem aside_defer (w : World) : Aside w (defer.run w).2 := by
  simp only [defer, run_bind]
  split
  · exact aside_wakeTask _ w
  · split
    · exact .refl w
    · exact .of_eq rfl rfl

/-- A thing is taken at once, if there is room for that and the task may still take one. Either
way the stores and the tasks are left alone. -/
theorem poll_taking_one (n : Nat) {things : Nat} (hthings : things ≤ 1) (t : Ticket) (w : World) :
    ∃ w', Aside w w' ∧ ((poll n (.wait (.taking things t))).run w = (.value (), w') ∨
      (n = 0 ∨ w.allowance = some 0) ∧ ∃ left, left ≤ 1 ∧
        (poll n (.wait (.taking things t))).run w = (.wait (.taking left t), w')) := by
  have hspent : Aside w ((spend things).run w).2 := .of_eq rfl rfl
  cases n with
  | zero => exact ⟨w, .refl w, Or.inr ⟨Or.inl rfl, things, hthings, rfl⟩⟩
  | succ n =>
      rcases poll_taking_run n things t w with ⟨-, htaken⟩ | ⟨hless, hwaits⟩
      · exact ⟨_, hspent, Or.inl htaken⟩
      · have hnone : w.allowance = some 0 := by
          cases hallowance : w.allowance with
          | none => simp [hallowance] at hless
          | some allowed =>
              rw [hallowance, Option.getD_some] at hless
              exact congrArg some (by omega)
        exact ⟨_, hspent.trans (aside_defer _), Or.inr ⟨Or.inr hnone, _,
          Nat.le_trans (Nat.sub_le _ _) hthings, hwaits⟩⟩

end Sim

/-- The call of the mapper's listener for an event, before it has asked the factories. -/
inductive Offered (e : Event) : Future .listener → Prop where
  | listener : Offered e (.begin (.listener .mapFile e))
  | taking (things : Nat) (t : Ticket) (hthings : things ≤ 1) :
      Offered e (.bind (.wait (.taking things t)) (.andThen (.react .mapFile e)))
  | react : Offered e (.begin (.react .mapFile e))

/-- What the call comes to when it has asked the factories. -/
def mapped (brokenBy : Option Payload) : Future .listener :=
  match brokenBy with
  | none => .value (.ok ())
  | some payload => .panic payload

variable {file : Entry} {content : Bytes} {e : Event}

theorem react_run (he : e.notice = .added file content) {w : World}
    (hsent : w.pool.outbox = {}) :
    (Sim.react .mapFile e).run w =
      (mapped (Mapper.brokenBy file content w.mapper.factories),
        w.withMappings file content (Mapper.accepting file content w.mapper.factories)) := by
  have hreact : (Sim.react .mapFile e).run w =
      (mapped ((Sim.scheduleMappings file content).run w).1.2,
        ((Sim.scheduleMappings file content).run w).2) := by
    simp only [Sim.react, he, Sim.run_bind]
    generalize (Sim.scheduleMappings file content).run w = scheduled
    obtain ⟨⟨n, _ | payload⟩, w'⟩ := scheduled <;> rfl
  rw [hreact, Sim.scheduleMappings_run hsent]

/-- The listener's first turn. -/
theorem begin_listener (e : Event) (w : World) :
    (Sim.begin (.listener .mapFile e)).run w =
      (.bind (.wait (.taking 1 ⟨w.current, w.serial⟩)) (.andThen (.react .mapFile e)),
        { w with serial := w.serial + 1 }) := by
  rw [Sim.begin]
  rfl

theorem poll_react (he : e.notice = .added file content) (n : Nat) {w : World}
    (hsent : w.pool.outbox = {}) :
    (Sim.poll (n + 1) (.begin (.react .mapFile e))).run w =
      (mapped (Mapper.brokenBy file content w.mapper.factories),
        w.withMappings file content (Mapper.accepting file content w.mapper.factories)) := by
  have hbegin : (Sim.begin (.react .mapFile e)).run w = _ := react_run he hsent
  rw [Sim.poll_begin, hbegin]
  cases Mapper.brokenBy file content w.mapper.factories <;> exact Sim.poll_done _ _ _

/-- What a turn of the call comes to. Either nothing is done yet, which takes less room than
this or a task that may take nothing more; or all factories are asked, and each that accepts
the file before any breaks off has its job. -/
inductive Turned (e : Event) (file : Entry) (content : Bytes) (n room : Nat) (w : World) :
    Future .listener × World → Prop where
  | not_yet (f : Future .listener) (w' : World) (hoffered : Offered e f) (haside : Aside w w')
      (hwhy : n < room ∨ w.allowance = some 0) : Turned e file content n room w (f, w')
  | asked (w' : World) (haside : Aside w w') :
      Turned e file content n room w
        (mapped (Mapper.brokenBy file content w.mapper.factories),
          w'.withMappings file content (Mapper.accepting file content w.mapper.factories))

theorem turned_taking (he : e.notice = .added file content) (n : Nat) {things : Nat}
    (hthings : things ≤ 1) (t : Ticket) {w : World} (hsent : w.pool.outbox = {}) :
    Turned e file content n 2 w ((Sim.poll n (.bind (.wait (.taking things t))
      (.andThen (.react .mapFile e)))).run w) := by
  cases n with
  | zero => exact .not_yet _ w (.taking things t hthings) (.refl w) (Or.inl (by omega))
  | succ n =>
      rw [Sim.poll_bind]
      obtain ⟨w', haside, htaken | ⟨hwhy, left, hleft, hwaits⟩⟩ :=
        Sim.poll_taking_one n hthings t w
      · have hpool : w'.pool = w.pool := congrArg Stores.pool haside.stores
        have hmapper : w'.mapper = w.mapper := congrArg Stores.mapper haside.stores
        simp only [htaken, Future.value]
        rw [Sim.resume_andThen]
        cases n with
        | zero => exact .not_yet _ w' .react haside (Or.inl (by omega))
        | succ n =>
            rw [poll_react he n (hpool ▸ hsent), hmapper]
            exact .asked w' haside
      · rw [hwaits]
        refine .not_yet _ w' (.taking left t hleft) haside (hwhy.imp (fun hzero => ?_) id)
        omega

theorem Offered.turned {f : Future .listener} (h : Offered e f)
    (he : e.notice = .added file content) (n : Nat) {w : World} (hsent : w.pool.outbox = {}) :
    Turned e file content n 3 w ((Sim.poll n f).run w) := by
  cases n with
  | zero => exact .not_yet f w h (.refl w) (Or.inl (by omega))
  | succ n =>
      cases h with
      | listener =>
          have haside : Aside w { w with serial := w.serial + 1 } := .of_eq rfl rfl
          rw [Sim.poll_begin, begin_listener]
          have htaking := turned_taking he n (Nat.le_refl 1) ⟨w.current, w.serial⟩
            (w := { w with serial := w.serial + 1 }) hsent
          generalize (Sim.poll n _).run _ = turned at htaking
          cases htaking with
          | not_yet f w' hoffered haside' hwhy =>
              exact .not_yet f w' hoffered (haside.trans haside')
                (hwhy.imp (fun hlt => by omega) id)
          | asked w' haside' => exact .asked w' (haside.trans haside')
      | taking things t hthings =>
          have htaking := turned_taking he (n + 1) hthings t hsent
          generalize (Sim.poll (n + 1) _).run _ = turned at htaking
          cases htaking with
          | not_yet f w' hoffered haside hwhy =>
              exact .not_yet f w' hoffered haside (hwhy.imp (fun hlt => by omega) id)
          | asked w' haside => exact .asked w' haside
      | react =>
          rw [poll_react he n hsent]
          exact .asked w (.refl w)

end Simulation

open Script Simulation

/-- A pool that moves have led to has nothing left to pass on. -/
theorem Pool.outbox_run (config : Config) (moves : List Pool.Move) :
    ((Pool.new config).run moves).outbox = {} := by
  induction moves using List.reverseRecOn with
  | nil => rfl
  | append_singleton moves m ih =>
      rw [Pool.run_concat, Pool.step]
      split
      · rfl
      · exact ih

namespace Scenario

variable {s : Scenario} {w : World}

theorem Leads.outbox (h : Leads s.start w) : w.pool.outbox = {} := by
  obtain ⟨moves, hmoves⟩ := h.pool
  rw [hmoves]
  exact Pool.outbox_run s.config moves

/-- A step that registers a factory. -/
def registersFactory (name : String) (wants : Wants) : Step :=
  .feature (.factory name ⟨[], .done, none, wants⟩)

/-- The second of three factories breaks off when it is asked. -/
def threeFactories : World :=
  let first := ((runStep none (registersFactory "first" (.always true))).run (start {})).2
  let second := ((runStep none (registersFactory "second" (.panic (.literal "boom")))).run first).2
  ((runStep none (registersFactory "third" (.always true))).run second).2

def mainClass : Entry := { id := ⟨1⟩, name := "Main.class" }

/-- The mapper is told of a file when these factories are registered. -/
def offersMainClass : List Step :=
  [.broker 0 (.register .mapper none), registersFactory "first" (.always true),
    registersFactory "second" (.panic (.literal "boom")), registersFactory "third" (.always true),
    .broker 0 (.fire (.added mainClass [1]))]

/-- The world after that. -/
def mainClassOffered : World := ((offersMainClass.mapM (runStep none)).run (start {})).2

end Scenario

/-- Mapping jobs. When the mapper's listener is called for a new file it first does nothing,
and then asks all factories in one turn. Each that accepts the file gets one job with just
this file and content, in the order of their registration, and the others get none; unless
one breaks off when it is asked: then those before it have their jobs, no other has, and the
listener breaks off with that. -/
theorem mapping_jobs {s : Scenario} {w : World} (h : Scenario.Leads s.start w) {e : Event}
    {file : Entry} {content : Bytes} (he : e.notice = .added file content) :
    let fs := w.mapper.factories
    let told := Mapper.accepting file content fs
    let brokenBy := Mapper.brokenBy file content fs
    (Sim.react .mapFile e).run w = (mapped brokenBy, w.withMappings file content told) ∧
    (∀ f n, Offered e f → Turned e file content n 3 w ((Sim.poll n f).run w)) ∧
    ((∀ f ∈ fs, f.answers file content = true) →
      told = fs.filter (·.accepts file content) ∧ brokenBy = none) ∧
    ∀ before f rest payload, fs = before ++ f :: rest →
      (∀ f ∈ before, f.answers file content = true) → f.wants file content = .panicked payload →
      told = before.filter (·.accepts file content) ∧ brokenBy = some payload := by
  intro fs told brokenBy
  refine ⟨react_run he h.outbox, fun f n hoffered => hoffered.turned he n h.outbox,
    fun hanswers => ?_, ?_⟩
  · exact ⟨Mapper.accepting_of_answers hanswers, Mapper.brokenBy_eq_none_iff.mpr hanswers⟩
  · intro before f rest payload hfs hbefore hf
    simp only [told, brokenBy, hfs]
    exact Mapper.accepting_of_broken hbefore hf

theorem mapping_jobs_three :
    let w := Scenario.threeFactories
    let e : Event := ⟨0, .added Scenario.mainClass [1]⟩
    (Mapper.accepting Scenario.mainClass [1] w.mapper.factories).map (·.name) = ["first"] ∧
    (Sim.react .mapFile e).run w = (.panic (.literal "boom"),
      w.withMappings Scenario.mainClass [1]
        (Mapper.accepting Scenario.mainClass [1] w.mapper.factories)) := by
  intro w e
  have hleads : Scenario.Leads (Scenario.start {}) w :=
    ((Scenario.Leads.refl.runStep _ _).runStep _ _).runStep _ _
  have hbroken : Mapper.brokenBy Scenario.mainClass [1] w.mapper.factories =
      some (.literal "boom") := by decide +kernel
  obtain ⟨hrun, -⟩ := mapping_jobs (s := {}) hleads (e := e) rfl
  rw [hbroken] at hrun
  exact ⟨by decide +kernel, hrun⟩

/-- The third factory accepts the file as the first one does, and gets no job, because the
second one breaks off. -/
theorem accepting_factory_unasked :
    let w := Scenario.mainClassOffered
    w.mapper.factories.map (fun f => (f.name, f.accepts Scenario.mainClass [1])) =
      [("first", true), ("second", false), ("third", true)] ∧
    w.pool.jobs.map (·.name) = ["mapping:first:Main.class"] := by
  decide +kernel

end EventHub
