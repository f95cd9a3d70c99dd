import EventHub.Proofs.Names
import EventHub.Proofs.Pool.Moves
import EventHub.Scenario
import Mathlib.Data.List.Induction
import Mathlib.Data.List.Nodup

/-!
The list of live jobs. It holds the jobs whose body runs, and also every job whose
task was taken away while its body ran: only the end of a body takes a name out.
-/

namespace EventHub.Pool

/-- The jobs whose body was started and whose task has not ended. -/
def running (p : Pool) : List (JobId × String) :=
  (p.jobs.filter (·.phase.isRunning)).map fun j => (j.id, j.name)

/-- The jobs whose bodies are cut short in the course of some moves. -/
def cutShort (p : Pool) : List Move → List (JobId × String)
  | [] => []
  | m :: rest => m.cuts p ++ cutShort (p.step m) rest

theorem cutShort_concat (p : Pool) (moves : List Move) (m : Move) :
    p.cutShort (moves ++ [m]) = p.cutShort moves ++ m.cuts (p.run moves) := by
  induction moves generalizing p with
  | nil => simp [cutShort, run]
  | cons first rest ih =>
      simp only [List.cons_append, cutShort, ih, List.append_assoc]
      rfl

/-- A job stands at one place of the list, and its phase is changed there. -/
theorem setPhase_split {p : Pool} (hids : (p.jobs.map Job.id).Nodup) {id : JobId} {j : Job}
    (hj : p.job? id = some j) :
    ∃ before after, p.jobs = before ++ j :: after ∧ j.id = id ∧
      (∀ other ∈ before ++ after, other.id ≠ id) ∧
      ∀ phase, (p.setPhase id phase).jobs = before ++ { j with phase } :: after := by
  obtain ⟨hid, before, after, hjobs, hbefore⟩ := List.find?_eq_some_iff_append.mp hj
  have hid : j.id = id := by simpa using hid
  have hothers : ∀ other ∈ before ++ after, other.id ≠ id := by
    intro other hmem
    rcases List.mem_append.mp hmem with hfirst | hlast
    · simpa using hbefore other hfirst
    · rw [hjobs, List.map_append, List.map_cons] at hids
      have hnew := (List.nodup_cons.mp (List.nodup_append.mp hids).2.1).1
      intro heq
      exact hnew (List.mem_map.mpr ⟨other, hlast, heq.trans hid.symm⟩)
  refine ⟨before, after, hjobs, hid, hothers, ?_⟩
  intro phase
  have hkept (part : List Job) (hpart : ∀ other ∈ part, other.id ≠ id) :
      part.map (fun other => if other.id = id then { other with phase } else other) = part := by
    rw [List.map_congr_left fun other hmem => if_neg (hpart other hmem)]
    simp
  simp only [setPhase, hjobs, List.map_append, List.map_cons, hid, if_true]
  rw [hkept before fun other hmem => hothers other (List.mem_append_left _ hmem),
    hkept after fun other hmem => hothers other (List.mem_append_right _ hmem)]

/-- What the list of the living holds, given which bodies were cut short. -/
structure Accounts (p : Pool) (cut : List (JobId × String)) : Prop where
  ids_nodup : (p.jobs.map Job.id).Nodup
  id_le : ∀ j ∈ p.jobs, j.id.val ≤ p.jobs.length
  live_perm : p.live.Perm (p.running ++ cut)
  cut_ended : ∀ entry ∈ cut, ∃ j, p.job? entry.1 = some j ∧ j.hasEnded = true

namespace Accounts

variable {p p' : Pool} {cut more : List (JobId × String)}

theorem new (config : Config) : Accounts (Pool.new config) [] where
  ids_nodup := List.nodup_nil
  id_le _ h := by cases h
  live_perm := .refl _
  cut_ended _ h := by cases h

theorem congr (h : Accounts p cut) (hsame : SameJobs p p') : Accounts p' cut := by
  obtain ⟨hids, hle, hlive, hcut⟩ := h
  refine ⟨?_, ?_, ?_, ?_⟩
  · rw [hsame.jobs]
    exact hids
  · rw [hsame.jobs]
    exact hle
  · rw [hsame.live, running, hsame.jobs]
    exact hlive
  · simp only [job?, hsame.jobs]
    exact hcut

/-- Nobody has the next number yet: only smaller ones were given out. -/
theorem job?_next (h : Accounts p cut) : p.job? ⟨p.jobs.length + 1⟩ = none := by
  rw [job?, List.find?_eq_none]
  intro j hj
  have hle := h.id_le j hj
  simp only [decide_eq_true_eq]
  intro heq
  rw [heq] at hle
  exact Nat.not_succ_le_self _ hle

theorem job?_of_mem (h : Accounts p cut) {j : Job} (hmem : j ∈ p.jobs) :
    p.job? j.id = some j := by
  cases hfound : p.job? j.id with
  | none =>
      rw [job?, List.find?_eq_none] at hfound
      simpa using hfound j hmem
  | some other =>
      have hid : other.id = j.id := by simpa using List.find?_some hfound
      have hother := List.mem_of_find?_eq_some hfound
      rw [List.inj_on_of_nodup_map h.ids_nodup hother hmem hid]

theorem submitted (h : Accounts p cut) (name : String)
    (hjobs : p'.jobs = p.jobs ++ [{ id := ⟨p.jobs.length + 1⟩, name }]) (hlive : p'.live = p.live) :
    Accounts p' cut := by
  refine ⟨?ids_nodup, ?id_le, ?live_perm, ?cut_ended⟩
  case ids_nodup =>
    rw [hjobs, List.map_append, List.nodup_append]
    refine ⟨h.ids_nodup, by simp, ?_⟩
    rintro id hmem new hnew rfl
    obtain ⟨j, hj, rfl⟩ := List.mem_map.mp hmem
    have hle := h.id_le j hj
    have hval : j.id.val = p.jobs.length + 1 := by
      rw [List.map_singleton, List.mem_singleton] at hnew
      rw [hnew]
    omega
  case id_le =>
    intro j hj
    rw [hjobs, List.length_append, List.length_singleton]
    rw [hjobs] at hj
    rcases List.mem_append.mp hj with hold | hnew
    · have hle := h.id_le j hold
      omega
    · cases List.mem_singleton.mp hnew
      exact Nat.le_refl _
  case live_perm =>
    have hrunning : p'.running = p.running := by
      simp [running, hjobs, JobPhase.isRunning]
    rw [hlive, hrunning]
    exact h.live_perm
  case cut_ended =>
    intro entry hentry
    obtain ⟨j, hj, hended⟩ := h.cut_ended entry hentry
    refine ⟨j, ?_, hended⟩
    simp only [job?, hjobs, List.find?_append]
    rw [job?] at hj
    rw [hj]
    rfl

/-- Where a job is found, and what running jobs there are besides it. -/
theorem split (h : Accounts p cut) {id : JobId} {j : Job} (hj : p.job? id = some j)
    {phase : JobPhase} (hjobs : p'.jobs = (p.setPhase id phase).jobs) :
    ∃ before after : List (JobId × String),
      p.running = before ++ (if j.phase.isRunning then [(id, j.name)] else []) ++ after ∧
      p'.running = before ++ (if phase.isRunning then [(id, j.name)] else []) ++ after ∧
      ∀ entry ∈ before ++ after, entry.1 ≠ id := by
  obtain ⟨before, after, hsplit, rfl, hothers, hset⟩ := setPhase_split h.ids_nodup hj
  let names (part : List Job) := (part.filter (·.phase.isRunning)).map fun j => (j.id, j.name)
  have hcons (j : Job) (rest : List Job) :
      names (j :: rest) = (if j.phase.isRunning then [(j.id, j.name)] else []) ++ names rest := by
    cases hphase : j.phase.isRunning <;> simp [names, hphase]
  have happend (first second : List Job) :
      names (first ++ second) = names first ++ names second := by
    simp [names]
  refine ⟨names before, names after, ?_, ?_, ?_⟩
  · change names p.jobs = _
    rw [hsplit, happend, hcons, List.append_assoc]
  · change names p'.jobs = _
    rw [hjobs, hset phase, happend, hcons, List.append_assoc]
  · intro entry hmem
    rw [← happend] at hmem
    obtain ⟨other, hother, rfl⟩ := List.mem_map.mp hmem
    exact hothers other (List.mem_filter.mp hother).1

/-- The numbers of the jobs do not depend on their phases. -/
theorem ids_setPhase (h : Accounts p cut) {id : JobId} {phase : JobPhase}
    (hjobs : p'.jobs = (p.setPhase id phase).jobs) :
    (p'.jobs.map Job.id).Nodup ∧ ∀ j ∈ p'.jobs, j.id.val ≤ p'.jobs.length := by
  have hids : p'.jobs.map Job.id = p.jobs.map Job.id := by
    rw [hjobs, setPhase, List.map_map]
    apply List.map_congr_left
    intro j _
    by_cases hid : j.id = id <;> simp [hid]
  have hlength : p'.jobs.length = p.jobs.length := by
    rw [hjobs, setPhase, List.length_map]
  refine ⟨hids ▸ h.ids_nodup, ?_⟩
  intro j hj
  have hmem : j.id ∈ p.jobs.map Job.id := hids ▸ List.mem_map_of_mem hj
  obtain ⟨old, hold, hid⟩ := List.mem_map.mp hmem
  rw [hlength, ← hid]
  exact h.id_le old hold

/-- A job that has ended stays so when another one moves. -/
theorem cut_ended_setPhase (h : Accounts p cut) {id : JobId} {phase : JobPhase}
    (hjobs : p'.jobs = (p.setPhase id phase).jobs)
    (hactive : ∀ j, p.job? id = some j → j.hasEnded = false) :
    ∀ entry ∈ cut, entry.1 ≠ id ∧ ∃ j, p'.job? entry.1 = some j ∧ j.hasEnded = true := by
  intro entry hentry
  obtain ⟨j, hj, hended⟩ := h.cut_ended entry hentry
  have hne : entry.1 ≠ id := by
    intro heq
    rw [hactive j (heq ▸ hj)] at hended
    cases hended
  have hid : j.id = entry.1 := by simpa using List.find?_some hj
  have hjob : p'.job? entry.1 = (p.setPhase id phase).job? entry.1 := by
    simp only [job?, hjobs]
  refine ⟨hne, j, ?_, hended⟩
  rw [hjob, job?_setPhase, hj, Option.map_some, if_neg (hid ▸ hne)]

/-- A phase change that leaves the job's name on the list, or off it. -/
theorem phase (h : Accounts p cut) {id : JobId} {j : Job} {phase : JobPhase}
    (hj : p.job? id = some j) (hactive : j.hasEnded = false)
    (hjobs : p'.jobs = (p.setPhase id phase).jobs) (hlive : p'.live.Perm (p'.running ++ cut)) :
    Accounts p' cut := by
  obtain ⟨hids, hle⟩ := h.ids_setPhase hjobs
  have hended := h.cut_ended_setPhase hjobs fun other hother => by
    cases hj.symm.trans hother
    exact hactive
  exact ⟨hids, hle, hlive, fun entry hentry => (hended entry hentry).2⟩

theorem held (h : Accounts p cut) {id : JobId} {phase : JobPhase} (hphase : p.isIn id (·.isEarly))
    (hidle : phase.isRunning = false) (hjobs : p'.jobs = (p.setPhase id phase).jobs)
    (hlive : p'.live = p.live) : Accounts p' cut := by
  obtain ⟨j, hj, hearly⟩ := (p.isIn_eq_true_iff id _).mp hphase
  obtain ⟨before, after, hold, hnew, -⟩ := h.split hj hjobs
  have hrunning : p'.running = p.running := by
    rw [hold, hnew, hidle, JobPhase.not_running_of_early hearly]
  apply h.phase hj (Job.not_ended_of_early hearly) hjobs
  rw [hlive, hrunning]
  exact h.live_perm

theorem started (h : Accounts p cut) {id : JobId} (hphase : p.isIn id (·.isEarly))
    (hjobs : p'.jobs = (p.setPhase id .running).jobs)
    (hlive : p'.live = p.live ++ [(id, p.nameOf id)]) : Accounts p' cut := by
  obtain ⟨j, hj, hearly⟩ := (p.isIn_eq_true_iff id _).mp hphase
  obtain ⟨before, after, hold, hnew, -⟩ := h.split hj hjobs
  have hname : p.nameOf id = j.name := by rw [nameOf, hj]
  apply h.phase hj (Job.not_ended_of_early hearly) hjobs
  have hlist := h.live_perm
  rw [hold, JobPhase.not_running_of_early hearly] at hlist
  rw [hlive, hname, hnew]
  refine (hlist.append_right _).trans ?_
  rw [List.perm_iff_count]
  intro entry
  simp only [JobPhase.isRunning, List.count_append, if_true, Bool.false_eq_true, if_false,
    List.count_nil]
  omega

theorem finished (h : Accounts p cut) {id : JobId} {result : JobResult}
    (hphase : p.isIn id (·.isRunning)) (hjobs : p'.jobs = (p.setPhase id (.ended result)).jobs)
    (hlive : p'.live = p.live.filter (·.1 ≠ id)) : Accounts p' cut := by
  obtain ⟨j, hj, hruns⟩ := (p.isIn_eq_true_iff id _).mp hphase
  obtain ⟨before, after, hold, hnew, hothers⟩ := h.split hj hjobs
  have hactive := Job.not_ended_of_running hruns
  have hended := h.cut_ended_setPhase hjobs fun other hother => by
    cases hj.symm.trans hother
    exact hactive
  apply h.phase hj hactive hjobs
  -- Taking the number out leaves the others where they are: nobody else has it.
  have hkept : (p'.running ++ cut).filter (·.1 ≠ id) = p'.running ++ cut := by
    apply List.filter_eq_self.mpr
    intro entry hmem
    rcases List.mem_append.mp hmem with hrunning | hcut
    · rw [hnew] at hrunning
      simpa using hothers entry (by simpa [JobPhase.isRunning] using hrunning)
    · simpa using (hended entry hcut).1
  have hlist := (h.live_perm.filter (·.1 ≠ id))
  rw [hlive]
  refine hlist.trans ?_
  rw [← hkept, hold, hnew, hruns]
  simp [JobPhase.isRunning]

theorem aborted (h : Accounts p cut) {id : JobId} (hphase : p.isIn id (·.isRunning))
    (hjobs : p'.jobs = (p.setPhase id (.ended (.error .canceled))).jobs)
    (hlive : p'.live = p.live) : Accounts p' (cut ++ [(id, p.nameOf id)]) := by
  obtain ⟨j, hj, hruns⟩ := (p.isIn_eq_true_iff id _).mp hphase
  obtain ⟨before, after, hold, hnew, -⟩ := h.split hj hjobs
  obtain ⟨hids, hle⟩ := h.ids_setPhase hjobs
  have hname : p.nameOf id = j.name := by rw [nameOf, hj]
  have hended := h.cut_ended_setPhase hjobs fun other hother => by
    cases hj.symm.trans hother
    exact Job.not_ended_of_running hruns
  refine ⟨hids, hle, ?_, ?_⟩
  · have hlist := h.live_perm
    rw [hold, hruns] at hlist
    rw [hlive, hname, hnew]
    refine hlist.trans ?_
    rw [List.perm_iff_count]
    intro entry
    simp only [JobPhase.isRunning, List.count_append, if_true, Bool.false_eq_true, if_false,
      List.count_nil]
    omega
  · intro entry hentry
    rcases List.mem_append.mp hentry with hcut | hmine
    · exact (hended entry hcut).2
    · rw [List.mem_singleton.mp hmine]
      have hid : j.id = id := by simpa using List.find?_some hj
      have hjob : p'.job? id = (p.setPhase id (.ended (.error .canceled))).job? id := by
        simp only [job?, hjobs]
      exact ⟨{ j with phase := .ended (.error .canceled) },
        by rw [hjob, job?_setPhase, hj, Option.map_some, if_pos hid], rfl⟩

theorem change {owner : Option JobId} (h : Accounts p cut) (hchange : Change p p' owner more) :
    Accounts p' (cut ++ more) := by
  cases hchange with
  | cutShort id hphase hjobs hlive => exact h.aborted hphase hjobs hlive
  | same hsame =>
      rw [List.append_nil]
      exact h.congr hsame
  | submitted name hjobs hlive =>
      rw [List.append_nil]
      exact h.submitted name hjobs hlive
  | held id phase hphase hidle hjobs hlive =>
      rw [List.append_nil]
      exact h.held hphase hidle hjobs hlive
  | started id hphase hjobs hlive =>
      rw [List.append_nil]
      exact h.started hphase hjobs hlive
  | finished id result hphase hjobs hlive =>
      rw [List.append_nil]
      exact h.finished hphase hjobs hlive

theorem step (h : Accounts p cut) (m : Move) : Accounts (p.step m) (cut ++ m.cuts p) := by
  rw [Pool.step]
  split
  · rename_i hpossible
    exact (h.change (change_act p m hpossible)).congr ⟨rfl, rfl⟩
  · rename_i himpossible
    have hcuts : m.cuts p = [] := by
      cases m with
      | abort id => exact absurd rfl himpossible
      | _ => rfl
    rw [hcuts, List.append_nil]
    exact h

theorem run (config : Config) (moves : List Move) :
    Accounts ((Pool.new config).run moves) ((Pool.new config).cutShort moves) := by
  induction moves using List.reverseRecOn with
  | nil => exact new config
  | append_singleton moves m ih =>
      rw [run_concat, cutShort_concat]
      exact ih.step m

end Accounts

theorem liveNames_perm (p : Pool) : p.liveNames.Perm (p.live.map Prod.snd) :=
  List.mergeSort_perm _ _

theorem liveNames_sorted (p : Pool) : p.liveNames.Pairwise (· ≤ ·) :=
  pairwise_le_sorted (p.live.map Prod.snd)

/-- Live jobs. The list is sorted, and it names, once for each, the jobs whose body
runs and those whose body was cut short by an abort. So it is what it is said to be
as long as no body was cut short, and never again after that; and so is the list
of those that a shutdown gives up on. -/
theorem live_jobs (config : Config) (moves : List Move) :
    let p := (Pool.new config).run moves
    p.liveNames.Pairwise (· ≤ ·) ∧
    p.liveNames.Perm ((p.running ++ (Pool.new config).cutShort moves).map Prod.snd) ∧
    (p.liveNames.Perm (p.running.map Prod.snd) ↔ (Pool.new config).cutShort moves = []) ∧
    ∀ grace, (p.graceExceeded grace).2 = .graceExceeded grace p.liveNames := by
  intro p
  have hlive := p.liveNames_perm.trans ((Accounts.run config moves).live_perm.map Prod.snd)
  refine ⟨p.liveNames_sorted, hlive, ?_, fun _ => rfl⟩
  constructor
  · intro hexact
    have hlength := (hlive.symm.trans hexact).length_eq
    rw [List.length_map, List.length_map, List.length_append] at hlength
    apply List.eq_nil_of_length_eq_zero
    exact Nat.add_eq_left.mp hlength
  · intro hnone
    rw [hnone, List.append_nil] at hlive
    exact hlive

end EventHub.Pool

namespace EventHub

open EventHub.Script EventHub.Simulation

namespace Scenario

/-- A job waits for something in its body, and is aborted there. -/
def abortsImport : List Step :=
  [.pool (.submit ⟨"import", [.control (.waitGate "ready")], .done⟩ (some "job")),
    .pool (.abort "job")]

/-- The world after that job was aborted. -/
def importAborted : World := ((abortsImport.mapM (runStep none)).run (start {})).2

end Scenario

/-- The job has ended, and its name stays among the living. -/
theorem aborted_job_stays_live :
    Scenario.importAborted.pool.jobs.map (·.hasEnded) = [true] ∧
    Scenario.importAborted.pool.liveNames = ["import"] := by
  decide +kernel

end EventHub
