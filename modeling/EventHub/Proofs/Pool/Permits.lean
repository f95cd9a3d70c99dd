import EventHub.Proofs.Pool.Live
import Mathlib.Logic.Function.Basic

/-!
The permits of a pool that limits how many bodies run at once. A permit is free, or
it was given to a job in line that has not gone on yet, or a running job holds it.
Whatever way a job's task ends, the permit it has goes to the head of the line or is
free again, so that the pool always has as many as it was made with.
-/

namespace EventHub.Pool

/-- What a pool knows of its permits, and the jobs in line for one. -/
structure Permits where
  limit : Option Nat
  free : Nat
  line : List JobId
  granted : List JobId
  holders : List JobId

def permits (p : Pool) : Permits :=
  { limit := p.limit
    free := p.free
    line := p.queue.map Prod.fst
    granted := p.granted
    holders := p.holders }

/-! ### How a job's task starts and how it is taken away -/

/-- A job has its token, which is cancelled from the start in a closed pool. -/
def withToken (p : Pool) (id : JobId) : Pool :=
  if p.isClosed then { p with canceled := p.canceled ++ [id] }
  else { p with children := p.children ++ [id] }

theorem SameJobs.withToken (p : Pool) (id : JobId) : SameJobs p (p.withToken id) := by
  rw [Pool.withToken]
  split <;> exact ⟨rfl, rfl⟩

def lineUp (q : Pool) (id : JobId) (t : Ticket) : Pool :=
  { q with queue := q.queue ++ [(id, t)], watchers := q.watchers ++ [(id, t)] }

/-- All that the first turn of a job can come to once it has its token. -/
inductive Begun (q : Pool) (id : JobId) (t : Ticket) : Pool × Admission → Prop
  | refusedFreely (hcanceled : q.isCanceled id = true) :
      Begun q id t
        ((q.noteJob id .debug "job canceled before start" []).refuse id, .canceled)
  | startedFreely (hlimit : q.limit = none) (hcanceled : q.isCanceled id = false) :
      Begun q id t (q.startBody id, .run)
  | refused (hcanceled : q.isCanceled id = true) : Begun q id t (q.refuse id, .canceled)
  | started (hcanceled : q.isCanceled id = false) (hfree : 0 < q.free) :
      Begun q id t
        ({ q with free := q.free - 1, holders := q.holders ++ [id] }.startBody id, .run)
  | lined (hcanceled : q.isCanceled id = false) (hfree : q.free = 0) :
      Begun q id t ((q.lineUp id t).setPhase id .waiting, .wait)

theorem begun (p : Pool) (id : JobId) (t : Ticket) :
    Begun (p.withToken id) id t (p.begin id t) := by
  rw [Pool.begin, ← withToken]
  generalize p.withToken id = q
  split
  · rename_i hlimit
    cases hcanceled : q.isCanceled id with
    | true => exact .refusedFreely hcanceled
    | false => exact .startedFreely hlimit hcanceled
  · cases hcanceled : q.isCanceled id with
    | true => exact .refused hcanceled
    | false =>
        simp only [Bool.false_eq_true, if_false]
        split
        · rename_i hfree
          exact .started hcanceled hfree
        · rename_i hfree
          exact .lined hcanceled (Nat.eq_zero_of_not_pos hfree)

/-- All that taking a job's task away can come to. -/
inductive Aborted (p : Pool) (id : JobId) : Pool → Prop
  | none (hphase : p.isIn id (fun phase => phase.isEarly || phase.isRunning) = false) :
      Aborted p id p
  | submitted (hphase : p.isIn id (·.isSubmitted) = true) :
      Aborted p id (p.conclude id (.error .canceled))
  | waiting (hphase : p.isIn id (·.isWaiting) = true) :
      Aborted p id (((p.leaveQueue id).dropToken id).conclude id (.error .canceled))
  | running (hphase : p.isIn id (·.isRunning) = true) :
      Aborted p id (((p.returnPermit id).dropToken id).conclude id (.error .canceled))

theorem aborted (p : Pool) (id : JobId) : Aborted p id (p.abort id) := by
  rw [Pool.abort]
  cases hjob : p.job? id with
  | none =>
      apply Aborted.none
      rw [isIn, hjob, Option.any_none]
  | some j =>
      have hphases (kind : JobPhase → Bool) := isIn_of_job? hjob kind
      simp only [Option.map_some]
      cases hphase : j.phase with
      | submitted =>
          apply Aborted.submitted
          rw [hphases, hphase]
          rfl
      | waiting =>
          apply Aborted.waiting
          rw [hphases, hphase]
          rfl
      | running =>
          apply Aborted.running
          rw [hphases, hphase]
          rfl
      | ended result =>
          apply Aborted.none
          rw [hphases, hphase]
          rfl

/-! ### What leaves the permits alone -/

section Untouched

variable (p : Pool) (id : JobId)

@[simp] theorem permits_noteJob (level : Level) (message : String)
    (more : List (String × String)) : (p.noteJob id level message more).permits = p.permits := rfl

@[simp] theorem permits_setPhase (phase : JobPhase) : (p.setPhase id phase).permits = p.permits :=
  rfl

@[simp] theorem permits_withToken : (p.withToken id).permits = p.permits := by
  rw [withToken]
  split <;> rfl

@[simp] theorem permits_lineUp (t : Ticket) :
    (p.lineUp id t).permits = { p.permits with line := p.permits.line ++ [id] } := by
  simp [lineUp, permits]

@[simp] theorem permits_unwatch (t : Ticket) : (p.unwatch id t).permits = p.permits := rfl

@[simp] theorem permits_startBody : (p.startBody id).permits = p.permits := rfl

@[simp] theorem permits_noteEnd (result : JobResult) :
    (p.noteEnd id result).permits = p.permits := by
  rw [noteEnd.eq_def]
  split <;> simp

@[simp] theorem permits_cancelToken : (p.cancelToken id).permits = p.permits := by
  rw [cancelToken]
  split <;> rfl

@[simp] theorem permits_dropToken : (p.dropToken id).permits = p.permits := by
  rw [dropToken]
  split
  · rfl
  · split <;> rfl

@[simp] theorem permits_settleDrains : p.settleDrains.permits = p.permits := by
  rw [settleDrains]
  split <;> rfl

@[simp] theorem permits_conclude (result : JobResult) :
    (p.conclude id result).permits = p.permits := by
  have h := permits_settleDrains (p.setPhase id (.ended result))
  rw [permits_setPhase] at h
  exact h

@[simp] theorem permits_refuse : (p.refuse id).permits = p.permits := by
  simp [refuse]

@[simp] theorem permits_returnToken : (p.returnToken id).permits = p.permits := by
  rw [returnToken]
  split
  · rw [permits_dropToken]
    rfl
  · rfl

@[simp] theorem permits_close : p.close.permits = p.permits := by
  have hfold (tokens : List JobId) (q : Pool) :
      (tokens.foldl cancelToken q).permits = q.permits := by
    induction tokens generalizing q with
    | nil => rfl
    | cons id rest ih => rw [List.foldl_cons, ih, permits_cancelToken]
  have hsettled := permits_settleDrains { p with isClosed := true }
  rw [close, hfold]
  exact hsettled

end Untouched

/-! ### The books -/

/-- The books of `n` permits, some of which are in the hand of whoever moves them. A
running job holds one permit, and a waiting job was given one or stands in line, once. -/
structure Permits.Balanced (k : Permits) (n hand : Nat) (runs waits : JobId → Bool) : Prop where
  limit : k.limit = some n
  total : k.free + k.granted.length + k.holders.length + hand = n
  held : ∀ id, k.holders.count id = (runs id).toNat
  lined : ∀ id, k.granted.count id + k.line.count id = (waits id).toNat
  idle : 0 < k.free → k.line = []

section Moving

open Function (update update_apply)

variable {p : Pool} {n hand : Nat} {runs waits : JobId → Bool} {id : JobId}

/-- Counts that tell which jobs are of a kind go on doing so when they change for one. -/
theorem counts_update {kind : JobId → Bool} {old new : JobId → Nat} {isNow : Bool}
    (h : ∀ other, old other = (kind other).toNat) (hid : new id = isNow.toNat)
    (hothers : ∀ other, other ≠ id → new other = old other) :
    ∀ other, new other = (update kind id isNow other).toNat := by
  intro other
  rw [update_apply]
  split
  · subst other
    exact hid
  · rename_i hne
    rw [hothers other hne]
    exact h other

namespace Permits.Balanced

variable {k : Permits}

/-- A free permit is taken in hand. -/
theorem pick (h : k.Balanced n 0 runs waits) (hfree : 0 < k.free) :
    { k with free := k.free - 1 }.Balanced n 1 runs waits := by
  obtain ⟨hlimit, htotal, hheld, hlined, hidle⟩ := h
  refine ⟨hlimit, ?_, hheld, hlined, fun _ => hidle hfree⟩
  simp only
  omega

/-- A job that holds none takes the permit in hand. -/
theorem take (h : k.Balanced n 1 runs waits) (hruns : runs id = false) :
    { k with holders := k.holders ++ [id] }.Balanced n 0 (update runs id true) waits := by
  obtain ⟨hlimit, htotal, hheld, hlined, hidle⟩ := h
  have hnone := hheld id
  rw [hruns] at hnone
  refine ⟨hlimit, ?_, ?_, hlined, hidle⟩
  · simp only [List.length_append, List.length_singleton]
    omega
  · apply counts_update hheld
    · simp [List.count_append, hnone]
    · intro other hne
      simp [List.count_append, Ne.symm hne]

/-- The permit that a job holds is taken in hand. -/
theorem surrender (h : k.Balanced n 0 runs waits) (hmem : id ∈ k.holders)
    (hruns : runs id = true) :
    { k with holders := k.holders.erase id }.Balanced n 1 (update runs id false) waits := by
  obtain ⟨hlimit, htotal, hheld, hlined, hidle⟩ := h
  have hcount := hheld id
  rw [hruns] at hcount
  have hlength := List.length_erase_add_one hmem
  refine ⟨hlimit, ?_, ?_, hlined, hidle⟩
  · simp only
    omega
  · apply counts_update hheld
    · simp [hcount]
    · intro other hne
      exact List.count_erase_of_ne hne

/-- The permit that a job was given is taken in hand. -/
theorem accept (h : k.Balanced n 0 runs waits) (hmem : id ∈ k.granted) (hwaits : waits id = true) :
    { k with granted := k.granted.erase id }.Balanced n 1 runs (update waits id false) := by
  obtain ⟨hlimit, htotal, hheld, hlined, hidle⟩ := h
  have hcount := hlined id
  have hpositive := List.count_pos_iff.mpr hmem
  have hlength := List.length_erase_add_one hmem
  rw [hwaits, Bool.toNat_true] at hcount
  refine ⟨hlimit, ?_, hheld, ?_, hidle⟩
  · simp only
    omega
  · apply counts_update hlined
    · simp only [List.count_erase_self, Bool.toNat_false]
      omega
    · intro other hne
      simp only [List.count_erase_of_ne hne]

/-- A job that finds no free permit stands in line. -/
theorem lineUp (h : k.Balanced n 0 runs waits) (hfree : k.free = 0) (hwaits : waits id = false) :
    { k with line := k.line ++ [id] }.Balanced n 0 runs (update waits id true) := by
  obtain ⟨hlimit, htotal, hheld, hlined, hidle⟩ := h
  have hnone := hlined id
  rw [hwaits, Bool.toNat_false] at hnone
  refine ⟨hlimit, htotal, hheld, ?_, ?_⟩
  · apply counts_update hlined
    · simp only [List.count_append, List.count_singleton_self, Bool.toNat_true]
      omega
    · intro other hne
      simp [List.count_append, Ne.symm hne]
  · intro hpositive
    simp only [hfree] at hpositive
    omega

/-- A job that was given nothing leaves the line. -/
theorem leave (h : k.Balanced n 0 runs waits) (hmem : id ∉ k.granted) :
    { k with line := k.line.filter (· ≠ id) }.Balanced n 0 runs (update waits id false) := by
  obtain ⟨hlimit, htotal, hheld, hlined, hidle⟩ := h
  refine ⟨hlimit, htotal, hheld, ?_, ?_⟩
  · apply counts_update hlined
    · simp only [List.count_eq_zero.mpr hmem, Bool.toNat_false, Nat.zero_add]
      apply List.count_eq_zero.mpr
      simp
    · intro other hne
      simp only [List.count_filter (p := fun x => decide (x ≠ id)) (by simpa using hne)]
  · intro hpositive
    simp only [hidle hpositive, List.filter_nil]

end Permits.Balanced

/-- The permit in hand goes to the head of the line, or is free. -/
theorem balanced_releasePermit (h : p.permits.Balanced n 1 runs waits) :
    p.releasePermit.permits.Balanced n 0 runs waits := by
  obtain ⟨hlimit, htotal, hheld, hlined, hidle⟩ := h
  simp only [permits] at hlimit htotal hheld hlined hidle
  rw [releasePermit]
  split
  · rename_i hqueue
    refine ⟨hlimit, ?_, hheld, hlined, ?_⟩
    · simp only [permits]
      omega
    · simp [permits, hqueue]
  · rename_i first t rest hqueue
    simp only [hqueue, List.map_cons, List.cons_ne_nil, imp_false, Nat.not_lt] at hlined hidle
    refine ⟨hlimit, ?_, hheld, ?_, ?_⟩
    · simp only [permits, wake, List.length_append, List.length_singleton]
      omega
    · intro other
      have hother := hlined other
      simp only [permits, wake, List.count_append, List.count_cons, List.count_nil] at hother ⊢
      omega
    · simp only [permits, wake]
      omega

/-- A running job gives its permit back. -/
theorem balanced_returnPermit (h : p.permits.Balanced n 0 runs waits) (hruns : runs id = true) :
    (p.returnPermit id).permits.Balanced n 0 (update runs id false) waits := by
  have hcount := h.held id
  rw [hruns] at hcount
  have hmem : id ∈ p.holders := by
    apply List.count_pos_iff.mp
    exact Nat.lt_of_lt_of_eq Nat.one_pos hcount.symm
  rw [returnPermit, if_pos hmem]
  apply balanced_releasePermit
  exact h.surrender hmem hruns

/-- A waiting job leaves the line, or gives back what it was given. -/
theorem balanced_leaveQueue (h : p.permits.Balanced n 0 runs waits) (hwaits : waits id = true) :
    (p.leaveQueue id).permits.Balanced n 0 runs (update waits id false) := by
  rw [leaveQueue]
  split
  · rename_i hmem
    apply balanced_releasePermit
    exact h.accept hmem hwaits
  · rename_i hmem
    have hline : (p.queue.filter (·.1 ≠ id)).map Prod.fst =
        (p.queue.map Prod.fst).filter (· ≠ id) := by
      rw [List.filter_map]
      rfl
    have hleft := h.leave hmem
    simp only [permits, hline] at hleft ⊢
    exact hleft

end Moving

/-! ### The moves -/

def runs (p : Pool) (id : JobId) : Bool := p.isIn id (·.isRunning)

def waits (p : Pool) (id : JobId) : Bool := p.isIn id (·.isWaiting)

/-- The books of a pool balance: its running jobs hold a permit each, its waiting jobs
stand in line or were given one, and what is left is free. -/
def InBalance (p : Pool) (n : Nat) : Prop := p.permits.Balanced n 0 p.runs p.waits

section Moves

open Function (update update_apply update_eq_self_iff)

variable {p p' q : Pool} {n : Nat} {id : JobId} {phase : JobPhase}

theorem isIn_moved (hjobs : p'.jobs = (p.setPhase id phase).jobs) (hknown : (p.job? id).isSome)
    (kind : JobPhase → Bool) (other : JobId) :
    p'.isIn other kind = if other = id then kind phase else p.isIn other kind := by
  have hsame : p'.isIn other kind = (p.setPhase id phase).isIn other kind := by
    simp only [isIn, job?, hjobs]
  rw [hsame]
  split
  · subst other
    exact isIn_setPhase hknown phase kind
  · rename_i hne
    have hkept : (p.setPhase id phase).job? other = p.job? other := by
      rw [job?_setPhase]
      cases hfound : p.job? other with
      | none => rfl
      | some j =>
          have hid : j.id = other := by simpa using List.find?_some hfound
          rw [Option.map_some, if_neg (hid ▸ hne)]
    simp only [isIn, hkept]

theorem runs_moved (hjobs : p'.jobs = (p.setPhase id phase).jobs) (hknown : (p.job? id).isSome) :
    p'.runs = update p.runs id phase.isRunning := by
  funext other
  rw [update_apply]
  exact isIn_moved hjobs hknown _ other

theorem waits_moved (hjobs : p'.jobs = (p.setPhase id phase).jobs) (hknown : (p.job? id).isSome) :
    p'.waits = update p.waits id phase.isWaiting := by
  funext other
  rw [update_apply]
  exact isIn_moved hjobs hknown _ other

theorem isIn_excluded {kind other : JobPhase → Bool} (h : p.isIn id kind = true)
    (hexcluded : ∀ phase, kind phase = true → other phase = false) : p.isIn id other = false := by
  obtain ⟨j, hj, hkind⟩ := (p.isIn_eq_true_iff id kind).mp h
  rw [isIn_of_job? hj]
  exact hexcluded j.phase hkind

theorem runs_of_submitted (h : p.isIn id (·.isSubmitted) = true) : p.runs id = false :=
  isIn_excluded h fun phase hkind => by cases phase <;> first | rfl | cases hkind

theorem waits_of_submitted (h : p.isIn id (·.isSubmitted) = true) : p.waits id = false :=
  isIn_excluded h fun phase hkind => by cases phase <;> first | rfl | cases hkind

/-- A job that has not begun neither runs nor waits, so nothing changes if it is over. -/
theorem update_of_submitted (h : p.isIn id (·.isSubmitted) = true) :
    update p.runs id false = p.runs ∧ update p.waits id false = p.waits :=
  ⟨update_eq_self_iff.mpr (runs_of_submitted h).symm,
    update_eq_self_iff.mpr (waits_of_submitted h).symm⟩

theorem runs_of_waits (h : p.waits id = true) : p.runs id = false :=
  isIn_excluded h fun phase hkind => by cases phase <;> first | rfl | cases hkind

theorem waits_of_runs (h : p.runs id = true) : p.waits id = false :=
  isIn_excluded h fun phase hkind => by cases phase <;> first | rfl | cases hkind

theorem runs_congr (hjobs : p'.jobs = p.jobs) : p'.runs = p.runs := by
  funext id
  simp only [runs, isIn, job?, hjobs]

theorem waits_congr (hjobs : p'.jobs = p.jobs) : p'.waits = p.waits := by
  funext id
  simp only [waits, isIn, job?, hjobs]

/-- A job that was just submitted neither runs nor waits. -/
theorem isIn_submit (p : Pool) (name : String) {kind : JobPhase → Bool}
    (hkind : kind .submitted = false) (id : JobId) :
    (p.submit name).1.isIn id kind = p.isIn id kind := by
  simp only [Pool.submit, isIn, job?, List.find?_append]
  cases hfound : p.jobs.find? (·.id = id) with
  | some j => rfl
  | none => by_cases hid : (⟨p.jobs.length + 1⟩ : JobId) = id <;> simp [hid, hkind]

theorem runs_submit (p : Pool) (name : String) : (p.submit name).1.runs = p.runs :=
  funext (isIn_submit p name rfl)

theorem waits_submit (p : Pool) (name : String) : (p.submit name).1.waits = p.waits :=
  funext (isIn_submit p name rfl)

namespace InBalance

/-- The books balance again when the phase of a job follows its permit. -/
theorem moved (phase : JobPhase) {k : Permits}
    (hk : k.Balanced n 0 (update p.runs id phase.isRunning) (update p.waits id phase.isWaiting))
    (hpermits : p'.permits = k) (hjobs : p'.jobs = (p.setPhase id phase).jobs)
    (hknown : (p.job? id).isSome) : p'.InBalance n := by
  rw [InBalance, hpermits, runs_moved hjobs hknown, waits_moved hjobs hknown]
  exact hk

/-- A task is over, and what it held was given back. -/
theorem concluded {result : JobResult}
    (hq : q.permits.Balanced n 0 (update p.runs id false) (update p.waits id false))
    (hjobs : q.jobs = p.jobs) (hknown : (p.job? id).isSome) :
    (q.conclude id result).InBalance n := by
  apply moved (.ended result) hq (permits_conclude q id result) ?_ hknown
  rw [(q.conclude_jobs id result).1]
  simp only [setPhase, hjobs]

theorem begin (h : p.InBalance n) (hphase : p.isIn id (·.isSubmitted) = true) (t : Ticket) :
    (p.begin id t).1.InBalance n := by
  have hknown := isSome_of_isIn hphase
  have hruns := runs_of_submitted hphase
  have hwaits := waits_of_submitted hphase
  obtain ⟨hnotRunning, hnotWaiting⟩ := update_of_submitted hphase
  have hsame : SameJobs p (p.withToken id) := .withToken p id
  rw [InBalance, ← permits_withToken p id] at h
  have hbegun := p.begun id t
  generalize p.begin id t = r at hbegun
  have hrefused (q : Pool) (hpermits : q.permits = (p.withToken id).permits)
      (hjobs : q.jobs = p.jobs) : (q.refuse id).InBalance n := by
    apply concluded ?_ ((SameJobs.dropToken q id).jobs.trans hjobs) hknown
    rw [permits_dropToken, hnotRunning, hnotWaiting, hpermits]
    exact h
  cases hbegun with
  | refusedFreely _ => exact hrefused _ rfl hsame.jobs
  | refused _ => exact hrefused _ rfl hsame.jobs
  | startedFreely hlimit _ =>
      have hsome := h.limit
      simp only [permits, hlimit] at hsome
      cases hsome
  | started _ hfree =>
      have htaken := (h.pick hfree).take hruns
      rw [← hnotWaiting] at htaken
      exact moved .running htaken rfl (hsame.setPhase id .running) hknown
  | lined _ hfree =>
      have hlined := h.lineUp hfree hwaits
      rw [← hnotRunning] at hlined
      have hpermits : (((p.withToken id).lineUp id t).setPhase id .waiting).permits =
          { (p.withToken id).permits with line := (p.withToken id).permits.line ++ [id] } := by
        rw [permits_setPhase, permits_lineUp]
      exact moved .waiting hlined hpermits (hsame.setPhase id .waiting) hknown

/-- The task of a waiting job is over, and what it was given goes where it is due. -/
theorem left {result : JobResult} (h : p.InBalance n) (hphase : p.isIn id (·.isWaiting) = true)
    (hq : q = (p.leaveQueue id).dropToken id) : (q.conclude id result).InBalance n := by
  have hnotRunning : update p.runs id false = p.runs :=
    update_eq_self_iff.mpr (runs_of_waits hphase).symm
  have hleft := balanced_leaveQueue h hphase
  rw [← hnotRunning] at hleft
  subst q
  apply concluded ?_ ((SameJobs.leaveQueue p id).trans (.dropToken _ id)).jobs
    (isSome_of_isIn hphase)
  rw [permits_dropToken]
  exact hleft

theorem retry (h : p.InBalance n) (hphase : p.isIn id (·.isWaiting) = true) (t : Ticket) :
    (p.retry id t).1.InBalance n := by
  rw [Pool.retry]
  split
  · exact left h hphase rfl
  · split
    · rename_i hgranted
      have htaken := (h.accept hgranted hphase).take (runs_of_waits hphase)
      exact moved .running htaken rfl rfl (isSome_of_isIn hphase)
    · exact h

/-- The task of a running job is over, and its permit goes where it is due. -/
theorem surrendered {result : JobResult} (h : p.InBalance n)
    (hphase : p.isIn id (·.isRunning) = true) (hpermits : q.permits = p.permits)
    (hjobs : q.jobs = p.jobs) :
    (((q.returnPermit id).dropToken id).conclude id result).InBalance n := by
  have hnotWaiting : update p.waits id false = p.waits :=
    update_eq_self_iff.mpr (waits_of_runs hphase).symm
  rw [InBalance, ← hpermits] at h
  have hreturned := balanced_returnPermit h hphase
  rw [← hnotWaiting] at hreturned
  apply concluded ?_ ?_ (isSome_of_isIn hphase)
  · rw [permits_dropToken]
    exact hreturned
  · rw [((SameJobs.returnPermit q id).trans (.dropToken _ id)).jobs, hjobs]

theorem finish (h : p.InBalance n) (hphase : p.isIn id (·.isRunning) = true)
    (ending : BodyEnd) : (p.finish id ending).InBalance n := by
  have hends (q : Pool) (hpermits : q.permits = p.permits) (hjobs : q.jobs = p.jobs) :
      (((({ q with live := q.live.filter (·.1 ≠ id) }.noteEnd id ending.result).returnPermit
        id).dropToken id).conclude id ending.result).InBalance n := by
    apply surrendered h hphase
    · rw [permits_noteEnd]
      exact hpermits
    · rw [(SameJobs.noteEnd _ id ending.result).jobs]
      exact hjobs
  cases ending with
  | returned result => exact hends p rfl rfl
  | panicked payload => exact hends p rfl rfl
  | overdue deadline =>
      exact hends _ (permits_cancelToken p id) (SameJobs.cancelToken p id).jobs

theorem abort (h : p.InBalance n) (id : JobId) : (p.abort id).InBalance n := by
  have haborted := p.aborted id
  generalize p.abort id = p' at haborted
  cases haborted with
  | none _ => exact h
  | submitted hphase =>
      apply concluded ?_ rfl (isSome_of_isIn hphase)
      obtain ⟨hnotRunning, hnotWaiting⟩ := update_of_submitted hphase
      rw [hnotRunning, hnotWaiting]
      exact h
  | waiting hphase => exact left h hphase rfl
  | running hphase => exact surrendered h hphase rfl rfl

theorem submit (h : p.InBalance n) (name : String) : (p.submit name).1.InBalance n := by
  have hpermits : (p.submit name).1.permits = p.permits := rfl
  rw [InBalance, hpermits, runs_submit, waits_submit]
  exact h

/-- What has to do with neither permits nor phases. -/
theorem aside (h : p.InBalance n) (hpermits : p'.permits = p.permits) (hjobs : p'.jobs = p.jobs) :
    p'.InBalance n := by
  rw [InBalance, hpermits, runs_congr hjobs, waits_congr hjobs]
  exact h

/-- Every move a pool can make leaves the books in balance. -/
theorem act (h : p.InBalance n) (m : Move) (hpossible : m.isPossible p = true) :
    (p.act m).InBalance n := by
  cases m with
  | submit name => exact h.submit name
  | begin id t => exact h.begin hpossible t
  | retry id t => exact h.retry hpossible t
  | finish id ending => exact h.finish hpossible ending
  | abort id => exact h.abort id
  | close => exact h.aside (permits_close p) (SameJobs.close p).jobs
  | giveBack id => exact h.aside (permits_returnToken p id) (SameJobs.returnToken p id).jobs
  | _ => exact h.aside rfl rfl

theorem step (h : p.InBalance n) (m : Move) : (p.step m).InBalance n := by
  rw [Pool.step]
  split
  · rename_i hpossible
    exact (h.act m hpossible).aside rfl rfl
  · exact h

theorem new {config : Config} (hlimit : config.concurrencyLimit = some n) :
    (Pool.new config).InBalance n := by
  refine ⟨hlimit, ?_, fun _ => rfl, fun _ => rfl, fun _ => rfl⟩
  simp [permits, Pool.new, hlimit]

theorem run {config : Config} (hlimit : config.concurrencyLimit = some n) (moves : List Move) :
    ((Pool.new config).run moves).InBalance n := by
  induction moves using List.reverseRecOn with
  | nil => exact new hlimit
  | append_singleton moves m ih =>
      rw [run_concat]
      exact ih.step m

end InBalance

end Moves

end EventHub.Pool
