import EventHub.Proofs.Pool.Tokens

/-!
Closed pools. Nobody starts a body in a closed pool: a job whose body had not started
by the closing, or that was submitted later, can only end as cancelled, which it does
in its next turn. So a closed pool only subsides.
-/

namespace EventHub.Pool

section Closed

variable {p p' q : Pool} {id : JobId}

theorem isClosed_dropToken (p : Pool) (id : JobId) : (p.dropToken id).isClosed = p.isClosed := by
  rw [dropToken]
  split
  · rfl
  · split <;> rfl

theorem isClosed_settleDrains (p : Pool) : p.settleDrains.isClosed = p.isClosed := by
  rw [settleDrains]
  split <;> rfl

theorem isClosed_conclude (p : Pool) (id : JobId) (result : JobResult) :
    (p.conclude id result).isClosed = p.isClosed :=
  isClosed_settleDrains (p.setPhase id (.ended result))

theorem isClosed_close (p : Pool) : p.close.isClosed = true := by
  have hfold (tokens : List JobId) (q : Pool) :
      (tokens.foldl cancelToken q).isClosed = q.isClosed :=
    congrArg Closure.isClosed (closure_foldl tokens q)
  rw [close, hfold]
  exact isClosed_settleDrains { p with isClosed := true }

/-- The task of a job that leaves its place is over. -/
theorem isClosed_over (h : q.closure = p.closure) (id : JobId) (result : JobResult) :
    ((q.dropToken id).conclude id result).isClosed = p.isClosed := by
  rw [isClosed_conclude, isClosed_dropToken]
  exact congrArg Closure.isClosed h

theorem isClosed_withToken (p : Pool) (id : JobId) : (p.withToken id).isClosed = p.isClosed := by
  rw [withToken]
  split <;> rfl

/-- A pool that was closed stays closed. -/
theorem isClosed_step (h : p.isClosed = true) (m : Move) : (p.step m).isClosed = true := by
  have hact (hpossible : m.isPossible p = true) : (p.act m).isClosed = true := by
    cases m with
    | begin id t =>
        have hwith : (p.withToken id).isClosed = true := (isClosed_withToken p id).trans h
        have hbegun := p.begun id t
        simp only [act]
        generalize p.begin id t = r at hbegun
        cases hbegun with
        | refusedFreely _ => exact (isClosed_over rfl id _).trans hwith
        | refused _ => exact (isClosed_over rfl id _).trans hwith
        | _ => exact hwith
    | retry id t =>
        simp only [act, retry]
        split
        · exact (isClosed_over (closure_leaveQueue p id) id _).trans h
        · split <;> exact h
    | finish id ending =>
        have hends (q : Pool) (hq : q.isClosed = true) :
            (((({ q with live := q.live.filter (·.1 ≠ id) }.noteEnd id ending.result).returnPermit
              id).dropToken id).conclude id ending.result).isClosed = true := by
          have hnoted := (closure_returnPermit _ id).trans (closure_noteEnd
            { q with live := q.live.filter (·.1 ≠ id) } id ending.result)
          exact (isClosed_over hnoted id _).trans hq
        cases ending with
        | overdue deadline =>
            exact hends _ ((congrArg Closure.isClosed (closure_cancelToken p id)).trans h)
        | _ => exact hends p h
    | abort id =>
        have haborted := p.aborted id
        simp only [act]
        generalize p.abort id = p' at haborted
        cases haborted with
        | none _ => exact h
        | submitted _ => exact (isClosed_conclude p id _).trans h
        | waiting _ => exact (isClosed_over (closure_leaveQueue p id) id _).trans h
        | running _ => exact (isClosed_over (closure_returnPermit p id) id _).trans h
    | close => exact isClosed_close p
    | giveBack id =>
        simp only [act, returnToken]
        split
        · exact (isClosed_dropToken _ id).trans h
        · exact h
    | _ => exact h
  rw [step]
  split
  · rename_i hpossible
    exact hact hpossible
  · exact h

/-- In a closed pool the first turn of a job ends it. -/
theorem begin_of_closed (h : p.isClosed = true) (id : JobId) (t : Ticket) :
    ∃ q : Pool, q.jobs = p.jobs ∧ p.begin id t = (q.refuse id, .canceled) := by
  have hsame : SameJobs p (p.withToken id) := .withToken p id
  have hcanceled : (p.withToken id).isCanceled id = true := by
    simp [withToken, h, isCanceled]
  have hbegun := p.begun id t
  generalize p.begin id t = r at hbegun
  cases hbegun with
  | refusedFreely _ =>
      exact ⟨(p.withToken id).noteJob id .debug "job canceled before start" [], hsame.jobs, rfl⟩
  | refused _ => exact ⟨_, hsame.jobs, rfl⟩
  | startedFreely _ hnot => cases hcanceled.symm.trans hnot
  | started hnot _ => cases hcanceled.symm.trans hnot
  | lined hnot _ => cases hcanceled.symm.trans hnot

/-- In a closed pool the next turn of a job in line ends it. -/
theorem retry_of_closed (h : p.Closable) (hclosed : p.isClosed = true) (hwaits : p.waits id = true)
    (t : Ticket) : ∃ q : Pool, q.jobs = p.jobs ∧ p.retry id t = (q.refuse id, .canceled) := by
  have hcanceled : p.isCanceled id = true := by
    rcases h.covered id hwaits with hmem | ⟨hopen, -⟩
    · exact decide_eq_true hmem
    · cases hclosed.symm.trans hopen
  rw [retry, if_pos hcanceled]
  exact ⟨_, (SameJobs.leaveQueue p id).jobs, rfl⟩

theorem job?_conclude (hjobs : q.jobs = p.jobs) {j : Job} (hj : p.job? id = some j)
    (result : JobResult) :
    (q.conclude id result).job? id = some { j with phase := .ended result } := by
  have hid : j.id = id := by simpa using List.find?_some hj
  have hset : (q.conclude id result).job? id = (q.setPhase id (.ended result)).job? id := by
    simp only [job?, (q.conclude_jobs id result).1]
  have hfound : q.job? id = some j := by
    rw [job?, hjobs]
    exact hj
  rw [hset, job?_setPhase, hfound, Option.map_some, if_pos hid]

/-- A job whose body was not started, and that has not ended in another way than by
being cancelled. Nothing is said of a job that is not known yet. -/
def HeldBack (p : Pool) (id : JobId) : Prop :=
  ∀ j, p.job? id = some j → j.phase.isEarly = true ∨ j.phase = .ended (.error .canceled)

theorem heldBack_refuse (hjobs : q.jobs = p.jobs) (hknown : (p.job? id).isSome) :
    (q.refuse id).HeldBack id := by
  obtain ⟨j, hj⟩ := Option.isSome_iff_exists.mp hknown
  intro j' hj'
  have hjobs' : (q.dropToken id).jobs = p.jobs := (SameJobs.dropToken q id).jobs.trans hjobs
  rw [refuse, job?_conclude hjobs' hj] at hj'
  cases hj'
  exact Or.inr rfl

/-- The own move of a job that is held back in a closed pool holds it back or ends it. -/
theorem heldBack_act (h : p.Closable) (hclosed : p.isClosed = true) {m : Move}
    (hpossible : m.isPossible p = true) (howner : m.owner? = some id)
    (hearly : p.isIn id (·.isEarly) = true) : (p.act m).HeldBack id := by
  have hknown := isSome_of_isIn hearly
  have hover (q : Pool) (hjobs : q.jobs = p.jobs) :
      (q.conclude id (.error .canceled)).HeldBack id := by
    obtain ⟨j, hj⟩ := Option.isSome_iff_exists.mp hknown
    intro j' hj'
    rw [job?_conclude hjobs hj] at hj'
    cases hj'
    exact Or.inr rfl
  cases m with
  | begin id' t =>
      cases howner
      obtain ⟨q, hjobs, hbegin⟩ := begin_of_closed hclosed id t
      simp only [act, hbegin]
      exact heldBack_refuse hjobs hknown
  | retry id' t =>
      cases howner
      obtain ⟨q, hjobs, hretry⟩ := retry_of_closed h hclosed hpossible t
      simp only [act, hretry]
      exact heldBack_refuse hjobs hknown
  | finish id' ending =>
      cases howner
      have hidle := isIn_excluded hearly fun phase => JobPhase.not_running_of_early
      cases hidle.symm.trans hpossible
  | abort id' =>
      cases howner
      have haborted := p.aborted id
      simp only [act]
      generalize p.abort id = p' at haborted
      cases haborted with
      | none hphase =>
          have hactive : p.isIn id (fun phase => phase.isEarly || phase.isRunning) = true :=
            isIn_mono hearly fun phase hkind => by simp [hkind]
          cases hphase.symm.trans hactive
      | submitted _ => exact hover p rfl
      | waiting _ =>
          exact hover _ ((SameJobs.leaveQueue p id).trans (.dropToken _ id)).jobs
      | running hphase =>
          have hidle := isIn_excluded hearly fun phase => JobPhase.not_running_of_early
          cases hidle.symm.trans hphase
  | _ => cases howner

theorem runs_of_heldBack (h : p.HeldBack id) : p.runs id = false := by
  apply eq_false_of_ne_true
  intro hruns
  obtain ⟨j, hj, hrunning⟩ := (p.isIn_eq_true_iff id _).mp hruns
  rcases h j hj with hearly | hended
  · rw [JobPhase.not_running_of_early hearly] at hrunning
    cases hrunning
  · rw [hended] at hrunning
    cases hrunning

/-- Bodies and the living only become fewer, and whoever is held back stays so. -/
structure Subsides (p p' : Pool) : Prop where
  runs : ∀ id, p'.runs id = true → p.runs id = true
  live : ∀ entry ∈ p'.live, entry ∈ p.live
  heldBack : ∀ id, p.HeldBack id → p'.HeldBack id

theorem Subsides.refl (p : Pool) : Subsides p p := ⟨fun _ h => h, fun _ h => h, fun _ h => h⟩

theorem Subsides.trans {p₁ p₂ p₃ : Pool} (h : Subsides p₁ p₂) (h' : Subsides p₂ p₃) :
    Subsides p₁ p₃ :=
  ⟨fun id hruns => h.runs id (h'.runs id hruns),
    fun entry hmem => h.live entry (h'.live entry hmem),
    fun id hheld => h'.heldBack id (h.heldBack id hheld)⟩

/-- A move leaves a job where it is, submits it, or is the own move of a job whose task
has not ended. -/
theorem Change.job?_cases {owner : Option JobId} {cut : List (JobId × String)}
    (h : Change p p' owner cut) (id : JobId) :
    p'.job? id = p.job? id ∨
      (p.job? id = none ∧ ∃ j, p'.job? id = some j ∧ j.phase = .submitted) ∨
      (owner = some id ∧ (p.isIn id (·.isEarly) = true ∨ p.runs id = true)) := by
  have hown (who : JobId) (hchange : Change p p' (some who) cut)
      (hactive : p.isIn who (·.isEarly) = true ∨ p.runs who = true) :
      p'.job? id = p.job? id ∨
        (p.job? id = none ∧ ∃ j, p'.job? id = some j ∧ j.phase = .submitted) ∨
        (some who = some id ∧ (p.isIn id (·.isEarly) = true ∨ p.runs id = true)) := by
    by_cases hid : id = who
    · subst id
      exact Or.inr (Or.inr ⟨rfl, hactive⟩)
    · exact Or.inl (hchange.job?_other hid)
  cases h with
  | same hsame =>
      left
      rw [job?, hsame.jobs]
      rfl
  | submitted name hjobs hlive =>
      cases hfound : p.job? id with
      | some j => exact Or.inl (Change.job?_kept (.submitted name hjobs hlive) hfound)
      | none =>
          rw [job?] at hfound
          rw [job?, hjobs, List.find?_append, hfound, Option.none_or]
          by_cases hid : (⟨p.jobs.length + 1⟩ : JobId) = id <;> simp [hid]
  | held who phase hphase hidle hjobs hlive =>
      exact hown who (.held who phase hphase hidle hjobs hlive) (Or.inl hphase)
  | started who hphase hjobs hlive =>
      exact hown who (.started who hphase hjobs hlive) (Or.inl hphase)
  | finished who result hphase hjobs hlive =>
      exact hown who (.finished who result hphase hjobs hlive) (Or.inr hphase)
  | cutShort who hphase hjobs hlive =>
      exact hown who (.cutShort who hphase hjobs hlive) (Or.inr hphase)

/-- A move that holds back the job whose move it is lets no body start. -/
theorem Change.subsides {owner : Option JobId} {cut : List (JobId × String)}
    (h : Change p p' owner cut)
    (hheld : ∀ id, owner = some id → p.isIn id (·.isEarly) = true → p'.HeldBack id) :
    Subsides p p' := by
  refine ⟨?runs, ?live, ?heldBack⟩
  case runs =>
    intro id hruns
    rcases h.job?_cases id with hsame | ⟨-, j, hj, hphase⟩ | ⟨howner, hearly | hran⟩
    · rw [runs, isIn, hsame] at hruns
      exact hruns
    · rw [runs, isIn_of_job? hj, hphase] at hruns
      cases hruns
    · cases (runs_of_heldBack (hheld id howner hearly)).symm.trans hruns
    · exact hran
  case live =>
    cases h with
    | started id hphase hjobs hlive =>
        have hruns : p'.runs id = true := by
          rw [runs_moved hjobs (isSome_of_isIn hphase)]
          exact Function.update_self ..
        cases (runs_of_heldBack (hheld id rfl hphase)).symm.trans hruns
    | finished id result hphase hjobs hlive =>
        rw [hlive]
        intro entry hmem
        exact List.mem_of_mem_filter hmem
    | same hsame =>
        rw [hsame.live]
        exact fun _ hmem => hmem
    | submitted name hjobs hlive =>
        rw [hlive]
        exact fun _ hmem => hmem
    | held id phase hphase hidle hjobs hlive =>
        rw [hlive]
        exact fun _ hmem => hmem
    | cutShort id hphase hjobs hlive =>
        rw [hlive]
        exact fun _ hmem => hmem
  case heldBack =>
    intro id hback
    rcases h.job?_cases id with hsame | ⟨-, j, hj, hphase⟩ | ⟨howner, hearly | hran⟩
    · intro j hj
      exact hback j (hsame ▸ hj)
    · intro j' hj'
      cases hj.symm.trans hj'
      left
      rw [hphase]
      rfl
    · exact hheld id howner hearly
    · cases (runs_of_heldBack hback).symm.trans hran

/-- What is left of a pool once it was closed: it stays closed, and it subsides. -/
theorem subsides_step (h : p.Closable) (hclosed : p.isClosed = true) (m : Move) :
    Subsides p (p.step m) := by
  rw [step]
  split
  · rename_i hpossible
    have hacted : Subsides p (p.act m) := (change_act p m hpossible).subsides
      fun id howner hearly => heldBack_act h hclosed hpossible howner hearly
    exact ⟨hacted.runs, hacted.live, hacted.heldBack⟩
  · exact .refl p

theorem isClosed_run (hclosed : p.isClosed = true) (moves : List Move) :
    (p.run moves).isClosed = true := by
  induction moves using List.reverseRecOn with
  | nil => exact hclosed
  | append_singleton moves m ih =>
      rw [run_concat]
      exact isClosed_step ih m

theorem subsides_run (h : p.Closable) (hclosed : p.isClosed = true) (moves : List Move) :
    Subsides p (p.run moves) := by
  induction moves using List.reverseRecOn with
  | nil => exact .refl p
  | append_singleton moves m ih =>
      rw [run_concat]
      exact ih.trans (subsides_step (h.run moves) (isClosed_run hclosed moves) m)

theorem result?_conclude (hjobs : q.jobs = p.jobs) (hknown : (p.job? id).isSome)
    (result : JobResult) : (q.conclude id result).result? id = some result := by
  obtain ⟨j, hj⟩ := Option.isSome_iff_exists.mp hknown
  rw [result?, job?_conclude hjobs hj]

/-- A job that was not started by the closing: it never is, nobody sees it live, and it
ends as cancelled in its next turn, if it did not end before. -/
structure TurnedAway (p : Pool) (id : JobId) : Prop where
  not_running : p.runs id = false
  not_live : ∀ name, (id, name) ∉ p.live
  result : ∀ r, p.result? id = some r → r = .error .canceled
  begin : ∀ t, p.isIn id (·.isSubmitted) = true → (p.begin id t).2 = .canceled ∧
    (p.step (.begin id t)).result? id = some (.error .canceled)
  retry : ∀ t, p.isIn id (·.isWaiting) = true → (p.retry id t).2 = .canceled ∧
    (p.step (.retry id t)).result? id = some (.error .canceled)

/-- Nobody who has not started a body is among the living. -/
theorem Accounts.not_live {cut : List (JobId × String)} (h : Accounts p cut)
    (hunstarted : p.job? id = none ∨ p.isIn id (·.isEarly) = true) (name : String) :
    (id, name) ∉ p.live := by
  intro hmem
  rcases List.mem_append.mp (h.live_perm.mem_iff.mp hmem) with hrunning | hcut
  · obtain ⟨j, hj, hentry⟩ := List.mem_map.mp hrunning
    obtain ⟨hjob, hruns⟩ := List.mem_filter.mp hj
    have hfound := h.job?_of_mem hjob
    rw [show j.id = id from congrArg Prod.fst hentry] at hfound
    rcases hunstarted with hnone | hearly
    · cases hfound.symm.trans hnone
    · rw [isIn_of_job? hfound] at hearly
      rw [JobPhase.not_running_of_early hearly] at hruns
      cases hruns
  · obtain ⟨j, hfound, hended⟩ := h.cut_ended _ hcut
    rcases hunstarted with hnone | hearly
    · cases hfound.symm.trans hnone
    · rw [isIn_of_job? hfound] at hearly
      rw [Job.not_ended_of_early hearly] at hended
      cases hended

theorem turnedAway_of_heldBack (h : p.Closable) (hclosed : p.isClosed = true)
    (hback : p.HeldBack id) (hlive : ∀ name, (id, name) ∉ p.live) : p.TurnedAway id := by
  have hrefused (q : Pool) (hjobs : q.jobs = p.jobs) (hknown : (p.job? id).isSome) :
      (q.refuse id).result? id = some (.error .canceled) :=
    result?_conclude ((SameJobs.dropToken q id).jobs.trans hjobs) hknown _
  refine ⟨runs_of_heldBack hback, hlive, ?result, ?begin, ?retry⟩
  case result =>
    intro r hr
    rw [result?] at hr
    split at hr
    · rename_i hfound
      cases hr
      rcases hback _ hfound with hearly | hended
      · cases hearly
      · cases hended
        rfl
    · cases hr
  case begin =>
    intro t hphase
    obtain ⟨q, hjobs, hbegin⟩ := begin_of_closed hclosed id t
    have hstep : p.step (.begin id t) = { q.refuse id with outbox := {} } := by
      rw [step, if_pos (show Move.isPossible p (.begin id t) = true from hphase), act, hbegin]
    rw [hbegin, hstep]
    exact ⟨rfl, hrefused q hjobs (isSome_of_isIn hphase)⟩
  case retry =>
    intro t hphase
    obtain ⟨q, hjobs, hretry⟩ := retry_of_closed h hclosed hphase t
    have hstep : p.step (.retry id t) = { q.refuse id with outbox := {} } := by
      rw [step, if_pos (show Move.isPossible p (.retry id t) = true from hphase), act, hretry]
    rw [hretry, hstep]
    exact ⟨rfl, hrefused q hjobs (isSome_of_isIn hphase)⟩

/-- Whoever has not started a body in a closed pool is turned away, at any later time. -/
theorem turnedAway_later {config : Config} {moves : List Move}
    (hpool : p = (Pool.new config).run moves) (hclosed : p.isClosed = true)
    (hunstarted : p.job? id = none ∨ p.isIn id (·.isEarly) = true) (later : List Move) :
    (p.run later).TurnedAway id := by
  have hclosable : p.Closable := by
    rw [hpool]
    exact (Closable.new config).run moves
  have haccounts := Accounts.run config moves
  rw [← hpool] at haccounts
  have hback : p.HeldBack id := by
    intro j hj
    rcases hunstarted with hnone | hearly
    · cases hj.symm.trans hnone
    · left
      rw [← isIn_of_job? hj (·.isEarly)]
      exact hearly
  have hlater := subsides_run hclosable hclosed later
  apply turnedAway_of_heldBack (hclosable.run later) (isClosed_run hclosed later)
    (hlater.heldBack id hback)
  intro name hmem
  exact haccounts.not_live hunstarted name (hlater.live _ hmem)

/-- Closing a pool moves no job. -/
theorem turnedAway_run (config : Config) (before after : List Move)
    (h : ((Pool.new config).run before).job? id = none ∨
      ((Pool.new config).run before).isIn id (·.isEarly) = true) :
    ((Pool.new config).run (before ++ .close :: after)).TurnedAway id := by
  let p := (Pool.new config).run before
  have hjobs : (p.step .close).jobs = p.jobs := (SameJobs.close p).jobs
  have hclosed : p.step .close = (Pool.new config).run (before ++ [.close]) :=
    (run_concat _ before .close).symm
  have hrun : (Pool.new config).run (before ++ .close :: after) = (p.step .close).run after := by
    rw [run_append]
    rfl
  rw [hrun]
  apply turnedAway_later hclosed (isClosed_close p)
  simp only [isIn, job?, hjobs]
  exact h

end Closed

/-! ### Who is woken -/

section Woken

variable {p : Pool} {id : JobId} {t : Ticket}

theorem wakes_cancelToken (p : Pool) (id : JobId) :
    ∀ t ∈ p.outbox.wakes, t ∈ (p.cancelToken id).outbox.wakes := by
  intro t hmem
  rw [cancelToken]
  split
  · exact hmem
  · exact List.mem_append_left _ hmem

theorem wakes_foldl (tokens : List JobId) (p : Pool) :
    ∀ t ∈ p.outbox.wakes, t ∈ (tokens.foldl cancelToken p).outbox.wakes := by
  induction tokens generalizing p with
  | nil => exact fun _ hmem => hmem
  | cons first rest ih =>
      intro t hmem
      exact ih _ t (wakes_cancelToken p first t hmem)

/-- Cancelling tokens wakes whoever watches one of them. -/
theorem wakes_of_watched (tokens : List JobId) (hwatched : (id, t) ∈ p.watchers)
    (hlive : id ∉ p.canceled) (hmem : id ∈ tokens) :
    t ∈ (tokens.foldl cancelToken p).outbox.wakes := by
  induction tokens generalizing p with
  | nil => cases hmem
  | cons first rest ih =>
      rw [List.foldl_cons]
      by_cases hfirst : first = id
      · subst first
        apply wakes_foldl
        have hcanceled : ¬p.isCanceled id = true := by simpa [isCanceled] using hlive
        have hwoken : (id, t) ∈ (p.watchers.partition fun w => w.1 = id).1 := by
          rw [List.partition_eq_filter_filter]
          exact List.mem_filter.mpr ⟨hwatched, decide_eq_true rfl⟩
        rw [cancelToken, if_neg hcanceled]
        exact List.mem_append_right _ (List.mem_map_of_mem hwoken)
      · have hrest : id ∈ rest := (List.mem_cons.mp hmem).resolve_left (Ne.symm hfirst)
        apply ih ?_ ?_ hrest
        · rw [cancelToken]
          split
          · exact hwatched
          · simp [wake, hwatched, Ne.symm hfirst]
        · rw [mem_canceled_cancelToken]
          rintro (hcanceled | hsame)
          · exact hlive hcanceled
          · exact hfirst hsame.symm

/-- Closing a pool wakes whoever watches a token that it cancels. -/
theorem wakes_close (hwatched : (id, t) ∈ p.watchers) (hchild : id ∈ p.children)
    (hlive : id ∉ p.canceled) : t ∈ p.close.outbox.wakes := by
  have hkept (q : Pool) : q.settleDrains.watchers = q.watchers ∧
      q.settleDrains.children = q.children ∧ q.settleDrains.canceled = q.canceled := by
    rw [settleDrains]
    split <;> exact ⟨rfl, rfl, rfl⟩
  obtain ⟨hwatchers, hchildren, hcanceled⟩ := hkept { p with isClosed := true }
  rw [close]
  apply wakes_of_watched
  · simp only [hwatchers]
    exact hwatched
  · simp only [hcanceled]
    exact hlive
  · rw [hchildren, mem_cancelOrder]
    exact hchild

end Woken

end EventHub.Pool
