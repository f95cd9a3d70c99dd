import EventHub.Proofs.Registry.Agreement

/-!
Commit order. The answers of a registry are parts of its commit log: a snapshot
is one kind's part, in log order and with duplicates kept, and the services are
those of the confirmations that succeeded. The log only grows at its end.
-/

namespace EventHub

namespace History

variable {L : Type}

/-- What one more request commits. -/
def commits (h : History L) (q : Request L) : List (Subscription L) :=
  match q.command with
  | .subscribe service listener =>
    match h.stage service.id with
    | .admitted owner => [⟨owner, listener.expects, listener⟩]
    | _ => []
  | .confirm id _ =>
    match h.stage id with
    | .pending _ => h.made id
    | _ => []
  | _ => []

/-- The service that one more request admits. -/
def admits (h : History L) (q : Request L) : List Handle :=
  match q.command with
  | .confirm id _ =>
    match h.stage id with
    | .pending owner => [owner]
    | _ => []
  | _ => []

theorem log_extend (h : History L) (q : Request L) : (h.extend q).log = h.log ++ h.commits q := by
  obtain ⟨command, waits⟩ := q
  cases command with
  | subscribe service listener =>
      simp only [extend, commits]
      cases h.stage service.id <;> simp
  | confirm id name =>
      simp only [extend, commits]
      cases h.stage id <;> simp
  | discard id =>
      simp only [extend, commits]
      cases h.stage id <;> simp
  | reserve name => simp [extend, commits]
  | snapshot kind => simp [extend, commits]
  | services => simp [extend, commits]

theorem admitted_extend (h : History L) (q : Request L) :
    (h.extend q).admitted = h.admitted ++ h.admits q := by
  obtain ⟨command, waits⟩ := q
  cases command with
  | subscribe service listener =>
      simp only [extend, admits]
      cases h.stage service.id <;> simp
  | confirm id name =>
      simp only [extend, admits]
      cases h.stage id <;> simp
  | discard id =>
      simp only [extend, admits]
      cases h.stage id <;> simp
  | reserve name => simp [extend, admits]
  | snapshot kind => simp [extend, admits]
  | services => simp [extend, admits]

/-- What grows at its end with every request grows so with all of them. -/
theorem prefix_foldl {α : Type} {part : History L → List α}
    (hgrows : ∀ h q, part h <+: part (h.extend q)) (h : History L) (qs : List (Request L)) :
    part h <+: part (qs.foldl extend h) := by
  induction qs generalizing h with
  | nil => exact List.prefix_refl _
  | cons q rest ih => exact (hgrows h q).trans (ih (h.extend q))

theorem log_prefix_foldl (h : History L) (qs : List (Request L)) :
    h.log <+: (qs.foldl extend h).log :=
  prefix_foldl (fun h q => ⟨h.commits q, (h.log_extend q).symm⟩) h qs

theorem admitted_prefix_foldl (h : History L) (qs : List (Request L)) :
    h.admitted <+: (qs.foldl extend h).admitted :=
  prefix_foldl (fun h q => ⟨h.admits q, (h.admitted_extend q).symm⟩) h qs

end History

namespace Agrees

variable {L : Type} {r : Registry L} {h : History L}

theorem snapshot_eq (ha : Agrees r h) (kind : EventKind) :
    r.snapshot kind = h.log.filter (·.kind = kind) := ha.get_table kind

/-- A confirmation succeeds for a pending number and for no other. -/
theorem confirm_ok_iff (ha : Agrees r h) (id : ServiceId) (name : String) :
    (r.confirm id name).2 = .ok () ↔ ∃ owner, h.stage id = .pending owner := by
  constructor
  · intro hok
    by_contra hnone
    rw [ha.confirm_unknown (not_exists.mp hnone) name] at hok
    cases hok
  · rintro ⟨owner, hpending⟩
    have hlookup := ha.lookup_pending id
    rw [History.slot?_of_pending hpending] at hlookup
    simp only [Registry.confirm, hlookup]

end Agrees

/-- Commit order. A snapshot shows the kind's part of the commit log, the
services are the admitted ones in the order of their confirmations, and a
confirmation succeeds exactly when the history counts its service as pending. So
whatever is asked later, an answer is only ever prolonged. -/
theorem commit_order {L : Type} (qs : List (Request L)) :
    (∀ kind waits, (Registry.run {} qs).serve (.snapshot kind) waits =
      (Registry.run {} qs, some (.subscriptions ((History.of qs).log.filter (·.kind = kind))))) ∧
    (∀ waits, (Registry.run {} qs).serve .services waits =
      (Registry.run {} qs, some (.services (History.of qs).admitted))) ∧
    (∀ id name waits, ((Registry.run {} qs).serve (.confirm id name) waits).2 =
      some (.settled (.ok ())) ↔ ∃ owner, (History.of qs).stage id = .pending owner) ∧
    (∀ later kind,
      (Registry.run {} qs).snapshot kind <+: (Registry.run {} (qs ++ later)).snapshot kind) ∧
    (∀ later, (Registry.run {} qs).services <+: (Registry.run {} (qs ++ later)).services) := by
  have ha := Agrees.of_run qs
  refine ⟨?snapshot, ?services, ?confirm, ?snapshot_grows, ?services_grow⟩
  case snapshot =>
    intro kind waits
    simp only [Registry.serve, Registry.apply, ha.snapshot_eq]
  case services =>
    intro waits
    simp only [Registry.serve, Registry.apply, ha.services_eq]
  case confirm =>
    intro id name waits
    rw [← ha.confirm_ok_iff id name]
    simp [Registry.serve, Registry.apply]
  case snapshot_grows =>
    intro later kind
    rw [ha.snapshot_eq, (Agrees.of_run (qs ++ later)).snapshot_eq, History.of_append]
    exact ((History.of qs).log_prefix_foldl later).filter _
  case services_grow =>
    intro later
    rw [ha.services_eq, (Agrees.of_run (qs ++ later)).services_eq, History.of_append]
    exact (History.of qs).admitted_prefix_foldl later

end EventHub
