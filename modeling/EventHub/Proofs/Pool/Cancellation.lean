import EventHub.Proofs.Panics.Jobs
import EventHub.Proofs.Pool.Closed

/-!
What cancels a token. A deadline cancels the token of its own job and nothing else, the
closing of the pool cancels the tokens of all jobs, and a job that comes later gets a
cancelled one. A token that was not cancelled stays among those that a closing would cancel,
for as long as its job or anybody else refers to it.
-/

namespace EventHub.Pool

/-! ### What a move does to the tokens -/

section Tokens

variable {p q : Pool} {id other : JobId}

/-- Nothing happens to the tokens, but that of one job may leave if nobody borrowed it. -/
structure Retains (p p' : Pool) (id : JobId) : Prop where
  closed : p'.isClosed = p.isClosed
  canceled : p'.canceled = p.canceled
  borrowed : p'.borrowed = p.borrowed
  children : ∀ other ∈ p.children, other ∈ p'.children ∨ (other = id ∧ id ∉ p.borrowed)

namespace Retains

variable {p' p'' : Pool}

theorem of_eq (hclosed : p'.isClosed = p.isClosed) (hcanceled : p'.canceled = p.canceled)
    (hborrowed : p'.borrowed = p.borrowed) (hchildren : p'.children = p.children) :
    Retains p p' id :=
  ⟨hclosed, hcanceled, hborrowed, fun _ hmem => Or.inl (hchildren ▸ hmem)⟩

theorem refl (p : Pool) (id : JobId) : Retains p p id := of_eq rfl rfl rfl rfl

theorem trans (h : Retains p p' id) (h' : Retains p' p'' id) : Retains p p'' id := by
  refine ⟨h'.closed.trans h.closed, h'.canceled.trans h.canceled,
    h'.borrowed.trans h.borrowed, ?_⟩
  intro other hmem
  rcases h.children other hmem with hkept | hleft
  · rcases h'.children other hkept with hkept' | ⟨hid, hfree⟩
    · exact Or.inl hkept'
    · exact Or.inr ⟨hid, h.borrowed ▸ hfree⟩
  · exact Or.inr hleft

theorem releasePermit (p : Pool) (id : JobId) : Retains p p.releasePermit id := by
  rw [Pool.releasePermit]
  split <;> exact of_eq rfl rfl rfl rfl

theorem returnPermit (p : Pool) (id : JobId) : Retains p (p.returnPermit id) id := by
  rw [Pool.returnPermit]
  split
  · have hreturned : Retains p { p with holders := p.holders.erase id } id := of_eq rfl rfl rfl rfl
    exact hreturned.trans (releasePermit _ id)
  · exact refl p id

theorem leaveQueue (p : Pool) (id : JobId) : Retains p (p.leaveQueue id) id := by
  rw [Pool.leaveQueue]
  split
  · have hreturned : Retains p { p with granted := p.granted.erase id } id := of_eq rfl rfl rfl rfl
    exact hreturned.trans (releasePermit _ id)
  · exact of_eq rfl rfl rfl rfl

theorem noteEnd (p : Pool) (id : JobId) (result : JobResult) :
    Retains p (p.noteEnd id result) id := by
  rw [Pool.noteEnd.eq_def]
  split <;> exact of_eq rfl rfl rfl rfl

theorem dropToken (p : Pool) (id : JobId) : Retains p (p.dropToken id) id := by
  rw [Pool.dropToken]
  split
  · exact refl p id
  · rename_i hfree
    split
    · rename_i hchild
      refine ⟨rfl, rfl, rfl, fun other hmem => ?_⟩
      by_cases hid : other = id
      · exact Or.inr ⟨hid, hfree⟩
      · exact Or.inl (mem_removeLast hchild hmem hid)
    · exact refl p id

theorem conclude (p : Pool) (id : JobId) (result : JobResult) :
    Retains p (p.conclude id result) id := by
  have hsettled (q : Pool) : Retains q q.settleDrains id := by
    rw [settleDrains]
    split <;> exact of_eq rfl rfl rfl rfl
  have hset : Retains p (p.setPhase id (.ended result)) id := of_eq rfl rfl rfl rfl
  exact (hset.trans (hsettled _)).trans (of_eq rfl rfl rfl rfl)

/-- The task of a job is over, and its token leaves. -/
theorem windUp (p : Pool) (id : JobId) (result : JobResult) :
    Retains p ((p.dropToken id).conclude id result) id :=
  (dropToken p id).trans (conclude _ id result)

theorem ended (q : Pool) (id : JobId) (result : JobResult) :
    Retains q (((({ q with live := q.live.filter (·.1 ≠ id) }.noteEnd id result).returnPermit
      id).dropToken id).conclude id result) id := by
  have hremoved : Retains q { q with live := q.live.filter (·.1 ≠ id) } id :=
    of_eq rfl rfl rfl rfl
  exact ((hremoved.trans (noteEnd _ id result)).trans (returnPermit _ id)).trans (windUp _ id result)

theorem begun {t : Ticket} {r : Pool × Admission} (h : Begun q id t r) : Retains q r.1 id := by
  cases h with
  | refusedFreely _ =>
      have hnoted : Retains q (q.noteJob id .debug "job canceled before start" []) id :=
        of_eq rfl rfl rfl rfl
      exact hnoted.trans (windUp _ id _)
  | refused _ => exact windUp q id _
  | _ => exact of_eq rfl rfl rfl rfl

theorem retry (p : Pool) (id : JobId) (t : Ticket) : Retains p (p.retry id t).1 id := by
  rw [Pool.retry]
  split
  · exact (leaveQueue p id).trans (windUp _ id _)
  · split
    · exact of_eq rfl rfl rfl rfl
    · exact refl p id

theorem abort (p : Pool) (id : JobId) : Retains p (p.abort id) id := by
  have haborted := p.aborted id
  generalize p.abort id = p' at haborted
  cases haborted with
  | none _ => exact refl p id
  | submitted _ => exact conclude p id _
  | waiting _ => exact (leaveQueue p id).trans (windUp _ id _)
  | running _ => exact (returnPermit p id).trans (windUp _ id _)

end Retains

/-- Whose token a move cancels. -/
def Move.Cancels (p : Pool) (other : JobId) : Move → Prop
  | .begin id _ => p.isClosed = true ∧ other = id
  | .finish id (.overdue _) => other = id
  | .close => other ∈ p.children
  | _ => False

theorem mem_canceled_withToken (p : Pool) (id other : JobId) :
    other ∈ (p.withToken id).canceled ↔
      other ∈ p.canceled ∨ (p.isClosed = true ∧ other = id) := by
  rw [withToken]
  split
  · rename_i hclosed
    simp [hclosed]
  · rename_i hopen
    simp [hopen]

/-- A closing cancels the tokens that there are. -/
theorem mem_canceled_close (p : Pool) (other : JobId) :
    other ∈ p.close.canceled ↔ other ∈ p.canceled ∨ other ∈ p.children := by
  have hsettled (q : Pool) :
      q.settleDrains.canceled = q.canceled ∧ q.settleDrains.children = q.children := by
    rw [settleDrains]
    split <;> exact ⟨rfl, rfl⟩
  obtain ⟨hcanceled, hchildren⟩ := hsettled { p with isClosed := true }
  rw [close, mem_canceled_foldl, mem_cancelOrder]
  simp only [hcanceled, hchildren]

/-- A token that is cancelled stays so, and only these moves cancel one. -/
theorem mem_canceled_act (p : Pool) (m : Move) (other : JobId) :
    other ∈ (p.act m).canceled ↔ other ∈ p.canceled ∨ m.Cancels p other := by
  have hnone {p' : Pool} (h : p'.canceled = p.canceled) :
      other ∈ p'.canceled ↔ other ∈ p.canceled ∨ False := by
    rw [h, or_false]
  cases m with
  | begin id t =>
      rw [act, (Retains.begun (p.begun id t)).canceled, mem_canceled_withToken]
      rfl
  | retry id t => exact hnone (Retains.retry p id t).canceled
  | finish id ending =>
      cases ending with
      | overdue deadline =>
          have hended := (Retains.ended (p.cancelToken id) id (.error (.timeout deadline))).canceled
          have hact : (p.act (.finish id (.overdue deadline))).canceled =
              (p.cancelToken id).canceled := hended
          rw [hact, mem_canceled_cancelToken]
          rfl
      | returned result => exact hnone (Retains.ended p id result).canceled
      | panicked payload =>
          exact hnone (Retains.ended p id (.error (.panicked payload.message))).canceled
  | abort id => exact hnone (Retains.abort p id).canceled
  | close => exact mem_canceled_close p other
  | giveBack id =>
      refine hnone ?_
      rw [act, returnToken]
      split
      · exact (Retains.dropToken { p with borrowed := p.borrowed.erase id } id).canceled
      · rfl
  | _ => exact hnone rfl

theorem mem_canceled_step (p : Pool) (m : Move) (other : JobId) :
    other ∈ (p.step m).canceled ↔
      other ∈ p.canceled ∨ (m.isPossible p = true ∧ m.Cancels p other) := by
  rw [step]
  split
  · rename_i hpossible
    simp only [mem_canceled_act, hpossible, true_and]
  · rename_i hnot
    simp only [hnot, Bool.false_eq_true, false_and, or_false]

/-- Only a closing closes a pool. -/
theorem isClosed_act (p : Pool) (m : Move) :
    (p.act m).isClosed = true ↔ p.isClosed = true ∨ m = .close := by
  have hnone {p' : Pool} (h : p'.isClosed = p.isClosed) {m : Move} (hm : m ≠ .close) :
      p'.isClosed = true ↔ p.isClosed = true ∨ m = .close := by
    simp [h, hm]
  cases m with
  | begin id t =>
      exact hnone ((Retains.begun (p.begun id t)).closed.trans (isClosed_withToken p id))
        (fun h => by cases h)
  | retry id t => exact hnone (Retains.retry p id t).closed fun h => by cases h
  | finish id ending =>
      refine hnone ?_ fun h => by cases h
      cases ending with
      | overdue deadline =>
          have hended := (Retains.ended (p.cancelToken id) id (.error (.timeout deadline))).closed
          exact hended.trans (congrArg Closure.isClosed (closure_cancelToken p id))
      | returned result => exact (Retains.ended p id result).closed
      | panicked payload =>
          exact (Retains.ended p id (.error (.panicked payload.message))).closed
  | abort id => exact hnone (Retains.abort p id).closed fun h => by cases h
  | close => simp [act, isClosed_close]
  | giveBack id =>
      refine hnone ?_ fun h => by cases h
      rw [act, returnToken]
      split
      · exact isClosed_dropToken _ id
      · rfl
  | _ => exact hnone rfl fun h => by cases h

theorem isClosed_step_iff (p : Pool) (m : Move) :
    (p.step m).isClosed = true ↔ p.isClosed = true ∨ m = .close := by
  rw [step]
  split
  · exact isClosed_act p m
  · rename_i hnot
    constructor
    · exact Or.inl
    · rintro (hclosed | rfl)
      · exact hclosed
      · exact absurd rfl hnot

/-! ### The tokens that a closing cancels -/

/-- The token is cancelled, or a closing will cancel it. -/
def Covers (p : Pool) (id : JobId) : Prop :=
  id ∈ p.canceled ∨ (p.isClosed = false ∧ id ∈ p.children)

/-- Nobody refers to the token of a job: its task is over, and nobody borrowed it. -/
def Unreferenced (p : Pool) (id : JobId) : Prop :=
  (p.result? id).isSome = true ∧ id ∉ p.borrowed

variable {p' : Pool}

theorem Covers.retained (h : p.Covers id) (hretains : Retains p p' other)
    (hover : other = id → (p'.result? id).isSome = true) : p'.Covers id ∨ p'.Unreferenced id := by
  rcases h with hcanceled | ⟨hopen, hchild⟩
  · exact Or.inl (Or.inl (hretains.canceled ▸ hcanceled))
  · rcases hretains.children id hchild with hkept | ⟨rfl, hfree⟩
    · exact Or.inl (Or.inr ⟨hretains.closed.trans hopen, hkept⟩)
    · exact Or.inr ⟨hover rfl, hretains.borrowed ▸ hfree⟩

theorem covers_withToken (p : Pool) (id : JobId) : (p.withToken id).Covers id := by
  rw [withToken, Covers]
  split
  · simp
  · rename_i hopen
    simp [hopen]

theorem Covers.withToken (h : p.Covers id) (other : JobId) : (p.withToken other).Covers id := by
  rcases h with hcanceled | ⟨hopen, hchild⟩
  · exact Or.inl ((mem_canceled_withToken p other id).mpr (Or.inl hcanceled))
  · refine Or.inr ⟨(isClosed_withToken p other).trans hopen, ?_⟩
    rw [Pool.withToken, hopen]
    exact List.mem_append_left _ hchild

theorem Covers.of_closure (h : p.Covers id) (hclosure : q.closure = p.closure) : q.Covers id := by
  change id ∈ q.closure.canceled ∨ (q.closure.isClosed = false ∧ id ∈ q.closure.children)
  rw [hclosure]
  exact h

theorem Covers.cancelToken (h : p.Covers id) (other : JobId) :
    (p.cancelToken other).Covers id := by
  rcases h with hcanceled | ⟨hopen, hchild⟩
  · exact Or.inl ((mem_canceled_cancelToken p other id).mpr (Or.inl hcanceled))
  · have hsame := closure_cancelToken p other
    have hchildren : (p.cancelToken other).children = p.children :=
      congrArg Closure.children hsame
    exact Or.inr ⟨(congrArg Closure.isClosed hsame).trans hopen, hchildren ▸ hchild⟩

/-- The task of a job is over; only its own token may leave. -/
theorem Covers.windUp (h : q.Covers id) (hjobs : q.jobs = p.jobs) (hknown : (p.job? other).isSome)
    (result : JobResult) : ((q.dropToken other).conclude other result).Covers id ∨
      ((q.dropToken other).conclude other result).Unreferenced id := by
  refine h.retained (.windUp q other result) ?_
  rintro rfl
  rw [result?_conclude ((SameJobs.dropToken q other).jobs.trans hjobs) hknown]
  rfl

theorem Covers.begin (h : p.Covers id) (hphase : p.isIn other (·.isSubmitted) = true)
    (t : Ticket) : (p.begin other t).1.Covers id ∨ (p.begin other t).1.Unreferenced id := by
  have hwith := h.withToken other
  have hjobs := (SameJobs.withToken p other).jobs
  have hknown := isSome_of_isIn hphase
  have hbegun := p.begun other t
  generalize p.begin other t = r at hbegun
  cases hbegun with
  | refusedFreely _ =>
      have hnoted : ((p.withToken other).noteJob other .debug "job canceled before start"
          []).Covers id := hwith
      exact hnoted.windUp hjobs hknown _
  | refused _ => exact hwith.windUp hjobs hknown _
  | _ => exact Or.inl hwith

theorem Covers.retry (h : p.Covers id) (hphase : p.isIn other (·.isWaiting) = true)
    (t : Ticket) : (p.retry other t).1.Covers id ∨ (p.retry other t).1.Unreferenced id := by
  rw [Pool.retry]
  split
  · exact (h.of_closure (closure_leaveQueue p other)).windUp (SameJobs.leaveQueue p other).jobs
      (isSome_of_isIn hphase) _
  · split
    · exact Or.inl h
    · exact Or.inl h

theorem Covers.finish (h : p.Covers id) (hphase : p.isIn other (·.isRunning) = true)
    (ending : BodyEnd) : (p.finish other ending).Covers id ∨
      (p.finish other ending).Unreferenced id := by
  have hends (q : Pool) (hq : q.Covers id) (hjobs : q.jobs = p.jobs) (result : JobResult) :
      (((({ q with live := q.live.filter (·.1 ≠ other) }.noteEnd other result).returnPermit
        other).dropToken other).conclude other result).Covers id ∨
      (((({ q with live := q.live.filter (·.1 ≠ other) }.noteEnd other result).returnPermit
        other).dropToken other).conclude other result).Unreferenced id := by
    have hcovers : { q with live := q.live.filter (·.1 ≠ other) }.Covers id := hq
    refine ((hcovers.of_closure (closure_noteEnd _ other result)).of_closure
      (closure_returnPermit _ other)).windUp ?_ (isSome_of_isIn hphase) result
    rw [(SameJobs.returnPermit _ other).jobs, (SameJobs.noteEnd _ other result).jobs]
    exact hjobs
  cases ending with
  | returned result => exact hends p h rfl _
  | panicked payload => exact hends p h rfl _
  | overdue deadline =>
      exact hends _ (h.cancelToken other) (SameJobs.cancelToken p other).jobs _

theorem Covers.abort (h : p.Covers id) (other : JobId) :
    (p.abort other).Covers id ∨ (p.abort other).Unreferenced id := by
  have haborted := p.aborted other
  generalize p.abort other = p' at haborted
  cases haborted with
  | none _ => exact Or.inl h
  | submitted hphase =>
      refine h.retained (.conclude p other _) ?_
      rintro rfl
      rw [result?_conclude rfl (isSome_of_isIn hphase)]
      rfl
  | waiting hphase =>
      exact (h.of_closure (closure_leaveQueue p other)).windUp (SameJobs.leaveQueue p other).jobs
        (isSome_of_isIn hphase) _
  | running hphase =>
      exact (h.of_closure (closure_returnPermit p other)).windUp (SameJobs.returnPermit p other).jobs
        (isSome_of_isIn hphase) _

theorem Covers.returnToken (h : p.Covers id) (other : JobId) :
    (p.returnToken other).Covers id ∨ (p.returnToken other).Unreferenced id := by
  let given : Pool := { p with borrowed := p.borrowed.erase other }
  have hgiven : given.Covers id := h
  rw [Pool.returnToken]
  split
  · rename_i hended
    refine hgiven.retained (.dropToken given other) ?_
    rintro rfl
    rw [result?, job?, (SameJobs.dropToken given other).jobs]
    exact hended
  · exact Or.inl hgiven

theorem Covers.close (h : p.Covers id) : p.close.Covers id :=
  Or.inl ((mem_canceled_close p id).mpr (h.imp_right And.right))

/-- A token that a closing would cancel stays one, unless nobody refers to it any more. -/
theorem Covers.step (h : p.Covers id) (m : Move) :
    (p.step m).Covers id ∨ (p.step m).Unreferenced id := by
  have hact (hpossible : m.isPossible p = true) :
      (p.act m).Covers id ∨ (p.act m).Unreferenced id := by
    cases m with
    | begin other t => exact h.begin hpossible t
    | retry other t => exact h.retry hpossible t
    | finish other ending => exact h.finish hpossible ending
    | abort other => exact h.abort other
    | close => exact Or.inl h.close
    | giveBack other => exact h.returnToken other
    | _ => exact Or.inl h
  rw [Pool.step]
  split
  · rename_i hpossible
    exact hact hpossible
  · exact Or.inl h

/-- Somebody refers to the token in every moment of a run. -/
def Referenced (p : Pool) (id : JobId) (moves : List Move) : Prop :=
  ∀ before after, moves = before ++ after → ¬(p.run before).Unreferenced id

/-- For as long as anybody refers to a token, a closing would cancel it. -/
theorem Covers.run (h : p.Covers id) {moves : List Move} (hheld : p.Referenced id moves) :
    (p.run moves).Covers id := by
  induction moves using List.reverseRecOn with
  | nil => exact h
  | append_singleton moves m ih =>
      have hbefore : p.Referenced id moves := by
        rintro before after rfl
        exact hheld before (after ++ [m]) (List.append_assoc ..)
      have hnow := hheld (moves ++ [m]) [] (List.append_nil _).symm
      rw [run_concat] at hnow ⊢
      exact ((ih hbefore).step m).resolve_right hnow

/-- A job that is in a phase other than the last one has no result. -/
theorem result?_of_isIn {kind : JobPhase → Bool} (h : p.isIn id kind = true)
    (hkind : ∀ result, kind (.ended result) = false) : p.result? id = none := by
  obtain ⟨⟨_, _, phase⟩, hj, hphase⟩ := (p.isIn_eq_true_iff id kind).mp h
  rw [result?, hj]
  cases phase with
  | ended result => cases (hkind result).symm.trans hphase
  | _ => rfl

/-- A job whose task has begun and is not over. -/
def isUnderway (p : Pool) (id : JobId) : Bool :=
  p.isIn id fun phase => phase.isWaiting || phase.isRunning

theorem result?_of_isUnderway (h : p.isUnderway id = true) : p.result? id = none :=
  result?_of_isIn h fun _ => rfl

/-- Every job that is under way has a token that a closing cancels. -/
def AllCovered (p : Pool) : Prop := ∀ id, p.isUnderway id = true → p.Covers id

theorem allCovered_new (config : Config) : (Pool.new config).AllCovered := by
  intro id hunderway
  cases hunderway

theorem not_isUnderway_conclude (hjobs : q.jobs = p.jobs) (hknown : (p.job? id).isSome)
    (result : JobResult) : (q.conclude id result).isUnderway id = false := by
  apply eq_false_of_ne_true
  intro hunderway
  cases (result?_conclude hjobs hknown result).symm.trans (result?_of_isUnderway hunderway)

/-- The task of a job takes its token when it begins. -/
theorem covers_begin (hphase : p.isIn id (·.isSubmitted) = true) (t : Ticket)
    (hunderway : (p.begin id t).1.isUnderway id = true) : (p.begin id t).1.Covers id := by
  have hwith := covers_withToken p id
  have hrefused (q : Pool) (hjobs : q.jobs = p.jobs)
      (hunderway : (q.refuse id).isUnderway id = true) : False := by
    have hnot := not_isUnderway_conclude ((SameJobs.dropToken q id).jobs.trans hjobs)
      (isSome_of_isIn hphase) (.error .canceled)
    cases hnot.symm.trans hunderway
  have hjobs := (SameJobs.withToken p id).jobs
  have hbegun := p.begun id t
  generalize p.begin id t = r at hbegun hunderway ⊢
  cases hbegun with
  | refusedFreely _ =>
      exact (hrefused ((p.withToken id).noteJob id .debug "job canceled before start" []) hjobs
        hunderway).elim
  | refused _ => exact (hrefused _ hjobs hunderway).elim
  | _ => exact hwith

/-- A job comes under way only by the first turn of its task. -/
theorem isUnderway_step {m : Move} (hnot : p.isUnderway id = false)
    (hnow : (p.step m).isUnderway id = true) :
    ∃ t, m = .begin id t ∧ p.isIn id (·.isSubmitted) = true := by
  have hbefore (kind : JobPhase → Bool) (h : p.isIn id kind = true)
      (hkind : ∀ phase, kind phase = true → (phase.isWaiting || phase.isRunning) = true) :
      False := by
    cases hnot.symm.trans (isIn_mono h hkind)
  have hwaits (h : p.isIn id (·.isWaiting) = true) : False :=
    hbefore _ h fun phase hphase => by simp [hphase]
  have hruns (h : p.isIn id (·.isRunning) = true) : False :=
    hbefore _ h fun phase hphase => by simp [hphase]
  rw [step] at hnow
  split at hnow
  · rename_i hpossible
    have hacted : (p.act m).isUnderway id = true := hnow
    rcases (change_act p m hpossible).job?_cases id with hsame | ⟨-, j, hj, hphase⟩ | ⟨howner, -⟩
    · rw [isUnderway, isIn, hsame] at hacted
      cases hnot.symm.trans hacted
    · rw [isUnderway, isIn_of_job? hj, hphase] at hacted
      cases hacted
    · cases m with
      | begin id' t =>
          cases howner
          exact ⟨t, rfl, hpossible⟩
      | retry id' t =>
          cases howner
          exact (hwaits hpossible).elim
      | finish id' ending =>
          cases howner
          exact (hruns hpossible).elim
      | abort id' =>
          cases howner
          have haborted := p.aborted id
          rw [act] at hacted
          generalize p.abort id = p' at haborted hacted
          cases haborted with
          | none _ => cases hnot.symm.trans hacted
          | submitted hphase =>
              cases (not_isUnderway_conclude rfl (isSome_of_isIn hphase) _).symm.trans hacted
          | waiting hphase => exact (hwaits hphase).elim
          | running hphase => exact (hruns hphase).elim
      | _ => cases howner
  · cases hnot.symm.trans hnow

theorem AllCovered.step (h : p.AllCovered) (m : Move) : (p.step m).AllCovered := by
  intro id hnow
  cases hbefore : p.isUnderway id with
  | true =>
      refine ((h id hbefore).step m).resolve_right fun hunreferenced => ?_
      have hresult := hunreferenced.1
      rw [result?_of_isUnderway hnow] at hresult
      cases hresult
  | false =>
      obtain ⟨t, rfl, hphase⟩ := isUnderway_step hbefore hnow
      have hstep : p.step (.begin id t) = { (p.begin id t).1 with outbox := {} } := by
        rw [Pool.step, if_pos (show Move.isPossible p (.begin id t) = true from hphase), act]
      rw [hstep] at hnow ⊢
      exact covers_begin hphase t hnow

theorem AllCovered.run (h : p.AllCovered) (moves : List Move) : (p.run moves).AllCovered := by
  induction moves using List.reverseRecOn with
  | nil => exact h
  | append_singleton moves m ih =>
      rw [run_concat]
      exact ih.step m

/-- In a closed pool the token of every job under way is cancelled. -/
theorem isCanceled_of_isUnderway {config : Config} {moves : List Move}
    (hpool : p = (Pool.new config).run moves) (hclosed : p.isClosed = true)
    (hunderway : p.isUnderway id = true) : p.isCanceled id = true := by
  have hcovered : p.AllCovered := by
    rw [hpool]
    exact (allCovered_new config).run moves
  rcases hcovered id hunderway with hcanceled | ⟨hopen, -⟩
  · exact decide_eq_true hcanceled
  · cases hopen.symm.trans hclosed

/-! ### Why a token is cancelled -/

/-- A token is cancelled because the pool was closed, or because its own job has overrun the
deadline. -/
def WellCanceled (p : Pool) : Prop :=
  ∀ id ∈ p.canceled, p.isClosed = true ∨
    ∃ deadline, p.result? id = some (.error (.timeout deadline))

theorem result?_step_finish (h : p.isIn id (·.isRunning) = true) (ending : BodyEnd) :
    (p.step (.finish id ending)).result? id = some ending.result := by
  have hpossible : Move.isPossible p (.finish id ending) = true := h
  have hknown : ((p.finish id ending).job? id).isSome :=
    (change_act p (.finish id ending) hpossible).isSome_job? (isSome_of_isIn h)
  rw [step, if_pos hpossible]
  exact result?_finish hknown

theorem WellCanceled.step (h : p.WellCanceled) (m : Move) : (p.step m).WellCanceled := by
  intro id hmem
  rw [mem_canceled_step] at hmem
  rcases hmem with hbefore | ⟨hpossible, hcancels⟩
  · rcases h id hbefore with hclosed | ⟨deadline, hresult⟩
    · exact Or.inl (isClosed_step hclosed m)
    · exact Or.inr ⟨deadline, result?_step hresult m⟩
  · cases m with
    | begin other t => exact Or.inl (isClosed_step hcancels.1 _)
    | finish other ending =>
        cases ending with
        | overdue deadline =>
            cases (show id = other from hcancels)
            exact Or.inr ⟨deadline, result?_step_finish hpossible _⟩
        | _ => cases hcancels
    | close => exact Or.inl ((isClosed_step_iff p .close).mpr (Or.inr rfl))
    | _ => cases hcancels

theorem WellCanceled.run (config : Config) (moves : List Move) :
    ((Pool.new config).run moves).WellCanceled := by
  induction moves using List.reverseRecOn with
  | nil =>
      intro id hmem
      cases hmem
  | append_singleton moves m ih =>
      rw [run_concat]
      exact ih.step m

theorem canceled_run (h : id ∈ p.canceled) (moves : List Move) : id ∈ (p.run moves).canceled := by
  induction moves using List.reverseRecOn with
  | nil => exact h
  | append_singleton moves m ih =>
      rw [run_concat, mem_canceled_step]
      exact Or.inl ih

end Tokens

end EventHub.Pool
