import EventHub.Broker.Registry
import EventHub.Proofs.Lookup
import Mathlib.Logic.Function.Basic

/-!
What a sequence of requests to a registry comes to. A history is read off the
requests alone: what became of each number, what its service subscribed while
it was pending, and one log of everything that was committed. The registry
keeps none of these, yet its pending entries, its services and its table for
each kind are determined by them.
-/

namespace EventHub

/-- A command as it reaches the registry, with whether its caller still waits
for the answer. -/
structure Request (L : Type) where
  command : Command L
  callerWaits : Bool := true

namespace Registry

variable {L : Type}

/-- The books after one request. -/
def after (r : Registry L) (q : Request L) : Registry L :=
  (r.serve q.command q.callerWaits).1

/-- The books after a sequence of requests. -/
def run (r : Registry L) (qs : List (Request L)) : Registry L := qs.foldl after r

theorem run_append (r : Registry L) (first second : List (Request L)) :
    r.run (first ++ second) = (r.run first).run second :=
  List.foldl_append

theorem run_concat (r : Registry L) (qs : List (Request L)) (q : Request L) :
    r.run (qs ++ [q]) = (r.run qs).after q := by
  rw [run_append]
  rfl

end Registry

/-- What became of a service number. -/
inductive Stage where
  | unissued
  | pending (owner : Handle)
  | admitted (owner : Handle)
  | discarded

/-- A stage that is never left. -/
def Stage.IsFinal : Stage → Prop
  | .admitted _ | .discarded => True
  | .unissued | .pending _ => False

/-- The past of a registry, as the requests tell it. -/
structure History (L : Type) where
  /-- How many numbers were handed out. -/
  issued : Nat := 0
  stage : ServiceId → Stage := fun _ => .unissued
  /-- What was subscribed for a service while it was pending, in order. -/
  made : ServiceId → List (Subscription L) := fun _ => []
  /-- The commit log: all that was committed, in order. -/
  log : List (Subscription L) := []
  /-- Services in the order in which they were admitted. -/
  admitted : List Handle := []

namespace History

variable {L : Type}

/-- A number reaches another stage. -/
def move (h : History L) (id : ServiceId) (stage : Stage) : History L :=
  { h with stage := Function.update h.stage id stage }

@[simp] theorem move_issued (h : History L) (id : ServiceId) (stage : Stage) :
    (h.move id stage).issued = h.issued := rfl

@[simp] theorem move_made (h : History L) (id : ServiceId) (stage : Stage) :
    (h.move id stage).made = h.made := rfl

@[simp] theorem move_log (h : History L) (id : ServiceId) (stage : Stage) :
    (h.move id stage).log = h.log := rfl

@[simp] theorem move_admitted (h : History L) (id : ServiceId) (stage : Stage) :
    (h.move id stage).admitted = h.admitted := rfl

theorem move_stage (h : History L) (id other : ServiceId) (stage : Stage) :
    (h.move id stage).stage other = if other = id then stage else h.stage other := by
  simp [move, Function.update_apply]

/-- What one more request adds to the past. A confirmation that succeeds commits
what its service subscribed while it was pending; a subscription for an admitted
service is committed at once; nothing else is. -/
def extend (h : History L) (q : Request L) : History L :=
  match q.command with
  | .reserve name =>
    let id : ServiceId := ⟨h.issued + 1⟩
    { h with issued := h.issued + 1 }.move id
      (if q.callerWaits then .pending ⟨id, name⟩ else .discarded)
  | .subscribe service listener =>
    match h.stage service.id with
    | .pending owner =>
      let made := h.made service.id ++ [⟨owner, listener.expects, listener⟩]
      { h with made := Function.update h.made service.id made }
    | .admitted owner => { h with log := h.log ++ [⟨owner, listener.expects, listener⟩] }
    | _ => h
  | .confirm id _ =>
    match h.stage id with
    | .pending owner =>
      { h with log := h.log ++ h.made id, admitted := h.admitted ++ [owner] }.move id
        (.admitted owner)
    | _ => h
  | .discard id =>
    match h.stage id with
    | .pending _ => h.move id .discarded
    | _ => h
  | .snapshot _ => h
  | .services => h

-- In these three the hypotheses are the side conditions of the last case.
theorem extend_subscribe_unknown {h : History L} {service : Handle}
    (hpending : ∀ owner, h.stage service.id ≠ .pending owner)
    (hadmitted : ∀ owner, h.stage service.id ≠ .admitted owner) (listener : Listener L)
    (waits : Bool) : h.extend ⟨.subscribe service listener, waits⟩ = h := by
  simp only [extend]

theorem extend_confirm_unknown {h : History L} {id : ServiceId}
    (hpending : ∀ owner, h.stage id ≠ .pending owner) (name : String) (waits : Bool) :
    h.extend ⟨.confirm id name, waits⟩ = h := by
  simp only [extend]

theorem extend_discard_unknown {h : History L} {id : ServiceId}
    (hpending : ∀ owner, h.stage id ≠ .pending owner) (waits : Bool) :
    h.extend ⟨.discard id, waits⟩ = h := by
  simp only [extend]

/-- The past that consists of these requests. -/
def of (qs : List (Request L)) : History L := qs.foldl extend {}

theorem of_append (first second : List (Request L)) :
    of (first ++ second) = second.foldl extend (of first) :=
  List.foldl_append

theorem of_concat (qs : List (Request L)) (q : Request L) : of (qs ++ [q]) = (of qs).extend q := by
  rw [of_append]
  rfl

/-- Numbers are handed out in order, and only a pending service has something
that is not committed. -/
structure Numbered (issued : Nat) (stage : ServiceId → Stage)
    (made : ServiceId → List (Subscription L)) : Prop where
  unissued_iff : ∀ id, stage id = .unissued ↔ id.val = 0 ∨ issued < id.val
  made_unissued : ∀ id, stage id = .unissued → made id = []
  pending_id : ∀ id owner, stage id = .pending owner → owner.id = id
  made_owned : ∀ id owner, stage id = .pending owner →
    ∀ s ∈ made id, s.service = owner ∧ s.listener.expects = s.kind

/-- Facts that every history has, about the history itself. -/
structure Sound (h : History L) : Prop extends Numbered h.issued h.stage h.made where
  mem_admitted_iff : ∀ owner, owner ∈ h.admitted ↔ h.stage owner.id = .admitted owner
  admitted_id : ∀ id owner, h.stage id = .admitted owner → owner.id = id
  admitted_nodup : (h.admitted.map Handle.id).Nodup
  log_owned : ∀ s ∈ h.log, s.service ∈ h.admitted ∧ s.listener.expects = s.kind

theorem sound_empty : Sound ({} : History L) where
  unissued_iff id := by simp; omega
  made_unissued _ _ := rfl
  pending_id _ _ h := by cases h
  made_owned _ _ h := by cases h
  mem_admitted_iff _ := by simp
  admitted_id _ _ h := by cases h
  admitted_nodup := by simp
  log_owned := by simp

/-- A pending number that reaches a final stage leaves the others as they were. -/
theorem Numbered.settle {h : History L} (hn : Numbered h.issued h.stage h.made)
    {id : ServiceId} {owner : Handle} (hpending : h.stage id = .pending owner) {stage : Stage}
    (hfinal : stage.IsFinal) : Numbered h.issued (h.move id stage).stage h.made where
  unissued_iff other := by
    rw [move_stage]
    by_cases heq : other = id
    · subst heq
      have hissued := hn.unissued_iff other
      cases stage <;> simp_all [Stage.IsFinal]
    · simpa [heq] using hn.unissued_iff other
  made_unissued other := by
    rw [move_stage]
    split
    · cases stage <;> simp_all [Stage.IsFinal]
    · exact hn.made_unissued other
  pending_id other o := by
    rw [move_stage]
    split
    · cases stage <;> simp_all [Stage.IsFinal]
    · exact hn.pending_id other o
  made_owned other o := by
    rw [move_stage]
    split
    · cases stage <;> simp_all [Stage.IsFinal]
    · exact hn.made_owned other o

theorem Sound.stage_next {h : History L} (hs : h.Sound) : h.stage ⟨h.issued + 1⟩ = .unissued :=
  (hs.unissued_iff _).mpr (Or.inr (Nat.lt_succ_self _))

theorem Sound.not_admitted {h : History L} (hs : h.Sound) {id : ServiceId}
    (hstage : ∀ owner, h.stage id ≠ .admitted owner) {owner : Handle}
    (hmem : owner ∈ h.admitted) : owner.id ≠ id := by
  rintro rfl
  exact hstage owner ((hs.mem_admitted_iff owner).mp hmem)

/-- The next number is handed out. -/
theorem Sound.issue {h : History L} (hs : h.Sound) (name : String) (waits : Bool) :
    ({ h with issued := h.issued + 1 }.move ⟨h.issued + 1⟩
      (if waits then .pending ⟨⟨h.issued + 1⟩, name⟩ else .discarded)).Sound where
  unissued_iff id := by
    have hid := hs.unissued_iff id
    rw [move_stage]
    by_cases heq : id = ⟨h.issued + 1⟩
    · subst heq
      cases waits <;> simp
    · have hval : id.val ≠ h.issued + 1 := fun hval => heq (by cases id; simpa using hval)
      simp only [heq, if_false, hid, move_issued]
      omega
  made_unissued id := by
    rw [move_stage]
    split
    · cases waits <;> simp
    · exact hs.made_unissued id
  pending_id id owner := by
    rw [move_stage]
    split
    · subst id
      cases waits <;> simp +contextual [eq_comm]
    · exact hs.pending_id id owner
  mem_admitted_iff owner := by
    rw [move_stage]
    by_cases heq : owner.id = ⟨h.issued + 1⟩
    · have hnot : h.stage owner.id ≠ .admitted owner := by
        rw [heq, hs.stage_next]
        simp
      rw [if_pos heq, move_admitted, hs.mem_admitted_iff]
      cases waits <;> simpa using hnot
    · rw [if_neg heq]
      exact hs.mem_admitted_iff owner
  admitted_id id owner := by
    rw [move_stage]
    split
    · cases waits <;> simp
    · exact hs.admitted_id id owner
  admitted_nodup := hs.admitted_nodup
  made_owned id owner := by
    rw [move_stage]
    split
    · subst id
      simp [hs.made_unissued _ hs.stage_next]
    · exact hs.made_owned id owner
  log_owned := hs.log_owned

/-- A pending service is given up. -/
theorem Sound.drop {h : History L} (hs : h.Sound) {id : ServiceId} {owner : Handle}
    (hpending : h.stage id = .pending owner) : (h.move id .discarded).Sound where
  toNumbered := hs.toNumbered.settle hpending trivial
  mem_admitted_iff o := by
    rw [move_stage, move_admitted, hs.mem_admitted_iff]
    by_cases heq : o.id = id
    · simp [heq, hpending]
    · simp [heq]
  admitted_id other o := by
    rw [move_stage]
    split
    · simp
    · exact hs.admitted_id other o
  admitted_nodup := hs.admitted_nodup
  log_owned := hs.log_owned

/-- A pending service is admitted, with what it subscribed. -/
theorem Sound.admit {h : History L} (hs : h.Sound) {id : ServiceId} {owner : Handle}
    (hpending : h.stage id = .pending owner) :
    ({ h with log := h.log ++ h.made id, admitted := h.admitted ++ [owner] }.move id
      (.admitted owner)).Sound := by
  have hid : owner.id = id := hs.pending_id id owner hpending
  have hnew : ∀ o ∈ h.admitted, o.id ≠ id :=
    fun _ => hs.not_admitted (by simp [hpending])
  refine ⟨hs.toNumbered.settle hpending trivial, ?mem_admitted_iff, ?admitted_id,
    ?admitted_nodup, ?log_owned⟩
  case mem_admitted_iff =>
    intro o
    rw [move_stage]
    by_cases heq : o.id = id
    · have hnot : o ∉ h.admitted := fun hmem => hnew o hmem heq
      simp [heq, hnot, eq_comm]
    · have hne : o ≠ owner := fun ho => heq (ho ▸ hid)
      simp [heq, hne, hs.mem_admitted_iff]
  case admitted_id =>
    intro other o
    rw [move_stage]
    split
    · subst other
      rintro ⟨⟩
      exact hid
    · exact hs.admitted_id other o
  case admitted_nodup =>
    simp only [move_admitted, List.map_append, List.map_cons, List.map_nil, List.nodup_append]
    refine ⟨hs.admitted_nodup, by simp, ?_⟩
    intro a ha b hb
    obtain ⟨o, hmem, rfl⟩ := List.mem_map.mp ha
    rw [List.mem_singleton.mp hb, hid]
    exact hnew o hmem
  case log_owned =>
    intro s hs'
    rcases List.mem_append.mp hs' with hold | hmade
    · obtain ⟨hservice, hexpects⟩ := hs.log_owned s hold
      exact ⟨List.mem_append_left _ hservice, hexpects⟩
    · obtain ⟨hservice, hexpects⟩ := hs.made_owned id owner hpending s hmade
      exact ⟨by simp [hservice], hexpects⟩

/-- A subscription for a pending service stays with it. -/
theorem Sound.subscribe_pending {h : History L} (hs : h.Sound) {id : ServiceId} {owner : Handle}
    (hpending : h.stage id = .pending owner) (listener : Listener L) :
    ({ h with
      made := Function.update h.made id
        (h.made id ++ [⟨owner, listener.expects, listener⟩]) } : History L).Sound where
  unissued_iff := hs.unissued_iff
  made_unissued other hstage := by
    have hne : other ≠ id := by
      rintro rfl
      simp [hpending] at hstage
    simpa [hne] using hs.made_unissued other hstage
  pending_id := hs.pending_id
  mem_admitted_iff := hs.mem_admitted_iff
  admitted_id := hs.admitted_id
  admitted_nodup := hs.admitted_nodup
  made_owned other o hstage := by
    by_cases heq : other = id
    · subst heq
      obtain rfl : owner = o := by
        have hstage' : h.stage other = .pending o := hstage
        rw [hpending] at hstage'
        simpa using hstage'
      intro s hmem
      simp only [Function.update_self, List.mem_append, List.mem_singleton] at hmem
      rcases hmem with hold | rfl
      · exact hs.made_owned other owner hpending s hold
      · exact ⟨rfl, rfl⟩
    · simpa [heq] using hs.made_owned other o hstage
  log_owned := hs.log_owned

/-- A subscription for an admitted service is committed. -/
theorem Sound.subscribe_admitted {h : History L} (hs : h.Sound) {id : ServiceId} {owner : Handle}
    (hadmitted : h.stage id = .admitted owner) (listener : Listener L) :
    ({ h with log := h.log ++ [⟨owner, listener.expects, listener⟩] } : History L).Sound where
  unissued_iff := hs.unissued_iff
  made_unissued := hs.made_unissued
  pending_id := hs.pending_id
  mem_admitted_iff := hs.mem_admitted_iff
  admitted_id := hs.admitted_id
  admitted_nodup := hs.admitted_nodup
  made_owned := hs.made_owned
  log_owned s hmem := by
    rcases List.mem_append.mp hmem with hold | hnew
    · exact hs.log_owned s hold
    · obtain rfl := List.mem_singleton.mp hnew
      have hid := hs.admitted_id id owner hadmitted
      exact ⟨(hs.mem_admitted_iff owner).mpr (hid ▸ hadmitted), rfl⟩

theorem Sound.extend {h : History L} (hs : h.Sound) (q : Request L) : (h.extend q).Sound := by
  obtain ⟨command, waits⟩ := q
  cases command with
  | reserve name => exact hs.issue name waits
  | subscribe service listener =>
      by_cases hpending : ∃ owner, h.stage service.id = .pending owner
      · obtain ⟨owner, hstage⟩ := hpending
        simpa [History.extend, hstage] using hs.subscribe_pending hstage listener
      by_cases hadmitted : ∃ owner, h.stage service.id = .admitted owner
      · obtain ⟨owner, hstage⟩ := hadmitted
        simpa [History.extend, hstage] using hs.subscribe_admitted hstage listener
      rw [extend_subscribe_unknown (not_exists.mp hpending) (not_exists.mp hadmitted)]
      exact hs
  | confirm id name =>
      by_cases hpending : ∃ owner, h.stage id = .pending owner
      · obtain ⟨owner, hstage⟩ := hpending
        simpa [History.extend, hstage] using hs.admit hstage
      rw [extend_confirm_unknown (not_exists.mp hpending)]
      exact hs
  | discard id =>
      by_cases hpending : ∃ owner, h.stage id = .pending owner
      · obtain ⟨owner, hstage⟩ := hpending
        simpa [History.extend, hstage] using hs.drop hstage
      rw [extend_discard_unknown (not_exists.mp hpending)]
      exact hs
  | snapshot kind => exact hs
  | services => exact hs

theorem Sound.foldl {h : History L} (hs : h.Sound) (qs : List (Request L)) :
    (qs.foldl History.extend h).Sound := by
  induction qs generalizing h with
  | nil => exact hs
  | cons q rest ih => exact ih (hs.extend q)

theorem sound_of (qs : List (Request L)) : (of qs).Sound := sound_empty.foldl qs

end History

end EventHub
