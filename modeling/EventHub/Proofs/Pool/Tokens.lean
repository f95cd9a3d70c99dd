import EventHub.Proofs.Pool.Permits

/-!
The tokens of the jobs. Every job that waits for a permit has one, which the closing of
the pool cancels, and a job that comes later gets a cancelled one. A shutdown is let go
on only when no task is left.
-/

namespace EventHub.Pool

/-- What a pool knows of its tokens and of having been closed. -/
structure Closure where
  isClosed : Bool
  children : List JobId
  canceled : List JobId
  drained : List Ticket

def closure (p : Pool) : Closure :=
  { isClosed := p.isClosed
    children := p.children
    canceled := p.canceled
    drained := p.drained }

/-- Whoever waits will be cancelled by the closing, if that has not happened yet, and
no shutdown was let go on while a body runs. -/
structure Closure.Fits (c : Closure) (runs waits : JobId → Bool) : Prop where
  covered : ∀ id, waits id = true → id ∈ c.canceled ∨ (c.isClosed = false ∧ id ∈ c.children)
  drained : c.drained ≠ [] → c.isClosed = true ∧ ∀ id, runs id = false

def Closable (p : Pool) : Prop := p.closure.Fits p.runs p.waits

/-! ### What leaves the tokens alone -/

section Untouched

variable (p : Pool) (id : JobId)

@[simp] theorem closure_noteJob (level : Level) (message : String)
    (more : List (String × String)) : (p.noteJob id level message more).closure = p.closure := rfl

@[simp] theorem closure_setPhase (phase : JobPhase) : (p.setPhase id phase).closure = p.closure :=
  rfl

@[simp] theorem closure_lineUp (t : Ticket) : (p.lineUp id t).closure = p.closure := rfl

@[simp] theorem closure_startBody : (p.startBody id).closure = p.closure := rfl

@[simp] theorem closure_noteEnd (result : JobResult) :
    (p.noteEnd id result).closure = p.closure := by
  rw [noteEnd.eq_def]
  split <;> rfl

@[simp] theorem closure_releasePermit : p.releasePermit.closure = p.closure := by
  rw [releasePermit]
  split <;> rfl

@[simp] theorem closure_returnPermit : (p.returnPermit id).closure = p.closure := by
  rw [returnPermit]
  split
  · rw [closure_releasePermit]
    rfl
  · rfl

@[simp] theorem closure_leaveQueue : (p.leaveQueue id).closure = p.closure := by
  rw [leaveQueue]
  split
  · rw [closure_releasePermit]
    rfl
  · rfl

end Untouched

/-! ### The tokens -/

/-- Only the token that leaves is gone, wherever the others are put. -/
theorem mem_removeLast {ids : List JobId} {id other : JobId} (hid : id ∈ ids)
    (hmem : other ∈ ids) (hne : other ≠ id) : other ∈ removeLast ids id := by
  rw [removeLast]
  split
  · rename_i hnil
    rw [List.reverse_eq_nil_iff.mp hnil] at hmem
    cases hmem
  · rename_i last restReversed hsplit
    have hids : ids = restReversed.reverse ++ [last] := by
      rw [← List.reverse_reverse ids, hsplit, List.reverse_cons]
    rw [hids, List.mem_append, List.mem_singleton] at hid hmem
    dsimp only
    split
    · rename_i hlast
      rcases hmem with hrest | rfl
      · exact hrest
      · exact absurd hlast hne
    · rename_i hlast
      apply List.mem_map.mpr
      rcases hmem with hrest | rfl
      · exact ⟨other, hrest, if_neg hne⟩
      · rcases hid with hrest | rfl
        · exact ⟨id, hrest, if_pos rfl⟩
        · exact absurd rfl hlast

section Fitting

variable {p : Pool} {runs waits : JobId → Bool} {id : JobId}

theorem fits_dropToken (h : p.closure.Fits runs waits) (hwaits : waits id = false) :
    (p.dropToken id).closure.Fits runs waits := by
  rw [dropToken]
  split
  · exact h
  · split
    · rename_i hchild
      refine ⟨?_, h.drained⟩
      intro other hother
      rcases h.covered other hother with hcanceled | ⟨hopen, hmem⟩
      · exact Or.inl hcanceled
      · have hne : other ≠ id := by
          rintro rfl
          rw [hwaits] at hother
          cases hother
        exact Or.inr ⟨hopen, mem_removeLast hchild hmem hne⟩
    · exact h

/-- Cancelling a token takes nothing from the others. -/
theorem mem_canceled_cancelToken (p : Pool) (id other : JobId) :
    other ∈ (p.cancelToken id).canceled ↔ other ∈ p.canceled ∨ other = id := by
  rw [cancelToken]
  split
  · rename_i hcanceled
    have hmem : id ∈ p.canceled := of_decide_eq_true hcanceled
    constructor
    · exact Or.inl
    · rintro (hother | rfl)
      · exact hother
      · exact hmem
  · simp [wake]

/-- Cancelling a token changes nothing but the list of those that are cancelled. -/
theorem closure_cancelToken (p : Pool) (id : JobId) :
    (p.cancelToken id).closure = { p.closure with canceled := (p.cancelToken id).canceled } := by
  rw [cancelToken]
  split <;> rfl

theorem fits_cancelToken (h : p.closure.Fits runs waits) (id : JobId) :
    (p.cancelToken id).closure.Fits runs waits := by
  rw [closure_cancelToken]
  refine ⟨?_, h.drained⟩
  intro other hother
  rcases h.covered other hother with hcanceled | hchild
  · exact Or.inl ((mem_canceled_cancelToken p id other).mpr (Or.inl hcanceled))
  · exact Or.inr hchild

/-- Closing cancels every token there is, one by one. -/
theorem mem_canceled_foldl (tokens : List JobId) (q : Pool) (other : JobId) :
    other ∈ (tokens.foldl cancelToken q).canceled ↔ other ∈ q.canceled ∨ other ∈ tokens := by
  induction tokens generalizing q with
  | nil => simp
  | cons id rest ih =>
      rw [List.foldl_cons, ih, mem_canceled_cancelToken, List.mem_cons, or_assoc]

theorem closure_foldl (tokens : List JobId) (q : Pool) :
    (tokens.foldl cancelToken q).closure =
      { q.closure with canceled := (tokens.foldl cancelToken q).canceled } := by
  induction tokens generalizing q with
  | nil => rfl
  | cons id rest ih => rw [List.foldl_cons, ih, closure_cancelToken]

theorem mem_cancelOrder (tokens : List JobId) (id : JobId) :
    id ∈ cancelOrder tokens ↔ id ∈ tokens := by
  induction tokens using List.reverseRecOn with
  | nil => simp [cancelOrder]
  | append_singleton rest last _ => simp [cancelOrder, or_comm]

theorem runs_of_active_nil (h : p.active = []) (id : JobId) : p.runs id = false := by
  cases hruns : p.runs id with
  | false => rfl
  | true =>
      obtain ⟨j, hj, hrunning⟩ := (p.isIn_eq_true_iff id _).mp hruns
      have hmem : j ∈ p.active := by
        apply List.mem_filter.mpr
        simp [List.mem_of_find?_eq_some hj, Job.not_ended_of_running hrunning]
      rw [h] at hmem
      cases hmem

/-- Shutdowns go on when all tasks have ended. -/
theorem closable_settleDrains (h : p.Closable) : p.settleDrains.Closable := by
  rw [settleDrains]
  split
  · rename_i hover
    rw [Bool.and_eq_true, List.isEmpty_iff] at hover
    obtain ⟨hclosed, hactive⟩ := hover
    exact ⟨h.covered, fun _ => ⟨hclosed, runs_of_active_nil hactive⟩⟩
  · exact h

end Fitting

/-! ### The moves -/

section Moves

open Function (update update_apply)

variable {p p' q : Pool} {id : JobId} {phase : JobPhase}

namespace Closable

theorem moved (phase : JobPhase)
    (hq : q.closure.Fits (update p.runs id phase.isRunning) (update p.waits id phase.isWaiting))
    (hclosure : p'.closure = q.closure) (hjobs : p'.jobs = (p.setPhase id phase).jobs)
    (hknown : (p.job? id).isSome) : p'.Closable := by
  rw [Closable, hclosure, runs_moved hjobs hknown, waits_moved hjobs hknown]
  exact hq

theorem of_fits (h : p'.closure.Fits p.runs p.waits) (hjobs : p'.jobs = p.jobs) :
    p'.Closable := by
  rw [Closable, runs_congr hjobs, waits_congr hjobs]
  exact h

/-- What leaves the tokens and the phases alone. -/
theorem aside (h : p.Closable) (hclosure : p'.closure = p.closure) (hjobs : p'.jobs = p.jobs) :
    p'.Closable := by
  apply of_fits ?_ hjobs
  rw [hclosure]
  exact h

/-- A task is over, which may let shutdowns go on. -/
theorem concluded {result : JobResult}
    (hq : q.closure.Fits (update p.runs id false) (update p.waits id false))
    (hjobs : q.jobs = p.jobs) (hknown : (p.job? id).isSome) :
    (q.conclude id result).Closable := by
  have hset : (q.setPhase id (.ended result)).Closable := by
    apply moved (.ended result) hq (closure_setPhase q id _) ?_ hknown
    simp only [setPhase, hjobs]
  exact (closable_settleDrains hset).aside rfl rfl

/-- A body starts only in an open pool, which has let no shutdown go on. -/
theorem started (hq : q.closure.Fits p.runs p.waits) (hopen : q.isClosed = false)
    (hclosure : p'.closure = q.closure) (hjobs : p'.jobs = (p.setPhase id .running).jobs)
    (hknown : (p.job? id).isSome) : p'.Closable := by
  apply moved .running ?_ hclosure hjobs hknown
  constructor
  · intro other hother
    apply hq.covered other
    rw [update_apply] at hother
    split at hother
    · cases hother
    · exact hother
  · intro hdrained
    have hclosed := (hq.drained hdrained).1
    rw [show q.closure.isClosed = q.isClosed from rfl, hopen] at hclosed
    cases hclosed

/-- A job gets its token: with it the job can be cancelled, or is already. -/
theorem withToken (h : p.Closable) (id : JobId) :
    (p.withToken id).closure.Fits p.runs p.waits ∧
      ((p.withToken id).isCanceled id = false →
        (p.withToken id).isClosed = false ∧ id ∈ (p.withToken id).children) := by
  rw [Pool.withToken]
  split
  · rename_i hclosed
    refine ⟨⟨?_, h.drained⟩, ?_⟩
    · intro other hother
      rcases h.covered other hother with hcanceled | ⟨hopen, -⟩
      · exact Or.inl (List.mem_append_left _ hcanceled)
      · exact absurd hclosed (by simpa [closure] using hopen)
    · intro hcanceled
      simp [isCanceled] at hcanceled
  · rename_i hopen
    refine ⟨⟨?_, h.drained⟩, ?_⟩
    · intro other hother
      rcases h.covered other hother with hcanceled | ⟨hopen, hchild⟩
      · exact Or.inl hcanceled
      · exact Or.inr ⟨hopen, List.mem_append_left _ hchild⟩
    · intro _
      simpa using hopen

theorem begin (h : p.Closable) (hphase : p.isIn id (·.isSubmitted) = true) (t : Ticket) :
    (p.begin id t).1.Closable := by
  have hknown := isSome_of_isIn hphase
  have hruns := runs_of_submitted hphase
  have hwaits := waits_of_submitted hphase
  obtain ⟨hnotRunning, hnotWaiting⟩ := update_of_submitted hphase
  have hsame : SameJobs p (p.withToken id) := .withToken p id
  obtain ⟨hfits, htoken⟩ := h.withToken id
  have hrefused (q : Pool) (hclosure : q.closure = (p.withToken id).closure)
      (hjobs : q.jobs = p.jobs) : (q.refuse id).Closable := by
    apply concluded ?_ ((SameJobs.dropToken q id).jobs.trans hjobs) hknown
    rw [hnotRunning, hnotWaiting]
    apply fits_dropToken ?_ hwaits
    rw [hclosure]
    exact hfits
  have hbegun := p.begun id t
  generalize p.begin id t = r at hbegun
  cases hbegun with
  | refusedFreely _ => exact hrefused _ rfl hsame.jobs
  | refused _ => exact hrefused _ rfl hsame.jobs
  | startedFreely _ hcanceled =>
      exact started hfits (htoken hcanceled).1 rfl (hsame.setPhase id .running) hknown
  | started hcanceled _ =>
      exact started hfits (htoken hcanceled).1 rfl (hsame.setPhase id .running) hknown
  | lined hcanceled _ =>
      obtain ⟨hopen, hchild⟩ := htoken hcanceled
      have hclosure : (((p.withToken id).lineUp id t).setPhase id .waiting).closure =
          (p.withToken id).closure := rfl
      apply moved .waiting ?_ hclosure (hsame.setPhase id .waiting) hknown
      constructor
      · intro other hother
        rw [update_apply] at hother
        split at hother
        · subst other
          exact Or.inr ⟨hopen, hchild⟩
        · exact hfits.covered other hother
      · have hidle : JobPhase.waiting.isRunning = false := rfl
        rw [hidle, hnotRunning]
        exact hfits.drained

/-- The task of a job is over: it leaves the line or gives its permit back, and its
token leaves. -/
theorem ended {result : JobResult} (h : p.Closable) (hknown : (p.job? id).isSome)
    (hclosure : q.closure = p.closure) (hjobs : q.jobs = p.jobs) :
    ((q.dropToken id).conclude id result).Closable := by
  apply concluded ?_ ((SameJobs.dropToken q id).jobs.trans hjobs) hknown
  apply fits_dropToken
  · rw [hclosure]
    constructor
    · intro other hother
      apply h.covered other
      rw [update_apply] at hother
      split at hother
      · cases hother
      · exact hother
    · intro hdrained
      obtain ⟨hclosed, hnone⟩ := h.drained hdrained
      refine ⟨hclosed, ?_⟩
      intro other
      rw [update_apply]
      split
      · rfl
      · exact hnone other
  · rw [update_apply, if_pos rfl]

theorem retry (h : p.Closable) (hphase : p.isIn id (·.isWaiting) = true) (t : Ticket) :
    (p.retry id t).1.Closable := by
  have hknown := isSome_of_isIn hphase
  rw [Pool.retry]
  split
  · exact ended h hknown (closure_leaveQueue p id) (SameJobs.leaveQueue p id).jobs
  · rename_i hcanceled
    split
    · have hopen : p.isClosed = false := by
        rcases h.covered id hphase with hmem | ⟨hopen, -⟩
        · exact absurd (decide_eq_true hmem) hcanceled
        · exact hopen
      exact started h hopen rfl rfl hknown
    · exact h

theorem finish (h : p.Closable) (hphase : p.isIn id (·.isRunning) = true) (ending : BodyEnd) :
    (p.finish id ending).Closable := by
  have hknown := isSome_of_isIn hphase
  have hends (q : Pool) (hq : q.Closable) (hjobs : q.jobs = p.jobs) :
      (((({ q with live := q.live.filter (·.1 ≠ id) }.noteEnd id ending.result).returnPermit
        id).dropToken id).conclude id ending.result).Closable := by
    have hknown' : (q.job? id).isSome := by
      rw [job?, hjobs]
      exact hknown
    apply ended hq hknown'
    · rw [closure_returnPermit, closure_noteEnd]
      rfl
    · rw [(SameJobs.returnPermit _ id).jobs, (SameJobs.noteEnd _ id ending.result).jobs]
  cases ending with
  | returned result => exact hends p h rfl
  | panicked payload => exact hends p h rfl
  | overdue deadline =>
      have hjobs := (SameJobs.cancelToken p id).jobs
      exact hends _ (of_fits (fits_cancelToken h id) hjobs) hjobs

theorem abort (h : p.Closable) (id : JobId) : (p.abort id).Closable := by
  have haborted := p.aborted id
  generalize p.abort id = p' at haborted
  cases haborted with
  | none _ => exact h
  | submitted hphase =>
      apply concluded ?_ rfl (isSome_of_isIn hphase)
      obtain ⟨hnotRunning, hnotWaiting⟩ := update_of_submitted hphase
      rw [hnotRunning, hnotWaiting]
      exact h
  | waiting hphase =>
      exact ended h (isSome_of_isIn hphase) (closure_leaveQueue p id)
        (SameJobs.leaveQueue p id).jobs
  | running hphase =>
      exact ended h (isSome_of_isIn hphase) (closure_returnPermit p id)
        (SameJobs.returnPermit p id).jobs

theorem close (h : p.Closable) : p.close.Closable := by
  let marked : Pool := { p with isClosed := true }
  have hsettled : marked.settleDrains.isClosed = true ∧
      marked.settleDrains.children = p.children ∧ marked.settleDrains.canceled = p.canceled ∧
      (marked.settleDrains.drained ≠ [] → ∀ id, p.runs id = false) := by
    rw [settleDrains]
    split
    · rename_i hover
      rw [Bool.and_eq_true, List.isEmpty_iff] at hover
      exact ⟨rfl, rfl, rfl, fun _ => runs_of_active_nil (p := p) hover.2⟩
    · exact ⟨rfl, rfl, rfl, fun hdrained => (h.drained hdrained).2⟩
  obtain ⟨hclosed, hchildren, hcanceled, hdrained⟩ := hsettled
  apply of_fits (p := p) ?_ (SameJobs.close p).jobs
  rw [Pool.close, closure_foldl]
  constructor
  · intro id hid
    apply Or.inl
    simp only [mem_canceled_foldl, mem_cancelOrder, marked] at hchildren hcanceled ⊢
    rw [hchildren, hcanceled]
    rcases h.covered id hid with hmem | ⟨-, hchild⟩
    · exact Or.inl hmem
    · exact Or.inr hchild
  · intro hnonempty
    exact ⟨hclosed, hdrained hnonempty⟩

theorem returnToken (h : p.Closable) (id : JobId) : (p.returnToken id).Closable := by
  let given : Pool := { p with borrowed := p.borrowed.erase id }
  rw [Pool.returnToken]
  split
  · rename_i hended
    have hwaits : p.waits id = false := by
      apply eq_false_of_ne_true
      intro hwaits
      obtain ⟨j, hj, hwaiting⟩ := (p.isIn_eq_true_iff id _).mp hwaits
      have hjob : given.job? id = some j := hj
      rw [result?, hjob] at hended
      obtain ⟨_, _, phase⟩ := j
      cases phase with
      | ended result => cases hwaiting
      | _ => cases hended
    apply of_fits (p := p) (fits_dropToken (p := given) h hwaits)
    exact (SameJobs.dropToken given id).jobs
  · exact h.aside rfl rfl

theorem submit (h : p.Closable) (name : String) : (p.submit name).1.Closable := by
  rw [Closable, runs_submit, waits_submit]
  exact h

/-- Every move a pool can make leaves it such that it can be closed. -/
theorem act (h : p.Closable) (m : Move) (hpossible : m.isPossible p = true) :
    (p.act m).Closable := by
  cases m with
  | submit name => exact h.submit name
  | begin id t => exact h.begin hpossible t
  | retry id t => exact h.retry hpossible t
  | finish id ending => exact h.finish hpossible ending
  | abort id => exact h.abort id
  | close => exact h.close
  | giveBack id => exact h.returnToken id
  | leaveDrain t =>
      have hfits : (p.act (.leaveDrain t)).closure.Fits p.runs p.waits := by
        refine ⟨h.covered, ?_⟩
        intro hleft
        apply h.drained
        intro hnone
        have hdrained : p.drained = [] := hnone
        simp [closure, Pool.act, hdrained] at hleft
      exact of_fits hfits rfl
  | _ => exact h.aside rfl rfl

theorem step (h : p.Closable) (m : Move) : (p.step m).Closable := by
  rw [Pool.step]
  split
  · rename_i hpossible
    exact (h.act m hpossible).aside rfl rfl
  · exact h

theorem run (h : p.Closable) (moves : List Move) : (p.run moves).Closable := by
  induction moves using List.reverseRecOn with
  | nil => exact h
  | append_singleton moves m ih =>
      rw [run_concat]
      exact ih.step m

theorem new (config : Config) : (Pool.new config).Closable := by
  constructor
  · intro id hwaits
    cases hwaits
  · intro hdrained
    exact absurd rfl hdrained

end Closable

end Moves

end EventHub.Pool
