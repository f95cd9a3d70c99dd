import EventHub.Proofs.Registry.Agreement
import Mathlib.Data.List.Induction

/-!
Nothing of a service is visible unless the service was admitted. The books keep
their numbers apart through every sequence of requests, whatever handles and
numbers the requests name, and a number that was discarded stays gone: it is
refused from then on, and nobody is ever called for it.
-/

namespace EventHub

namespace Registry

variable {L : Type}

/-- The numbers, the pending entries and the tables fit together. -/
structure Coherent (r : Registry L) : Prop where
  pending_nodup : (r.pending.map Prod.fst).Nodup
  services_nodup : (r.services.map Handle.id).Nodup
  disjoint : ∀ entry ∈ r.pending, ∀ owner ∈ r.services, owner.id ≠ entry.1
  pending_le : ∀ entry ∈ r.pending, entry.1.val ≤ r.lastId
  services_le : ∀ owner ∈ r.services, owner.id.val ≤ r.lastId
  pending_keyed : ∀ entry ∈ r.pending, entry.2.handle.id = entry.1
  pending_owned : ∀ entry ∈ r.pending, ∀ s ∈ entry.2.subscriptions, s.service = entry.2.handle
  table_owned : ∀ kind, ∀ s ∈ r.table.get kind, s.kind = kind ∧ s.service ∈ r.services

/-- The request gives up a number: it discards a pending entry, or reserves one
for a caller that has left. -/
def Drops (r : Registry L) (q : Request L) (id : ServiceId) : Prop :=
  match q.command with
  | .discard target => target = id ∧ (r.pending.lookup id).isSome
  | .reserve _ => q.callerWaits = false ∧ id = ⟨r.lastId + 1⟩
  | _ => False

/-- Nothing is left of a number, and whoever names it is refused. -/
structure Gone (r : Registry L) (id : ServiceId) : Prop where
  not_pending : ∀ entry ∈ r.pending, entry.1 ≠ id
  not_admitted : ∀ owner ∈ r.services, owner.id ≠ id
  unheard : ∀ kind, ∀ s ∈ r.snapshot kind, s.service.id ≠ id
  subscribe_refused : ∀ (service : Handle) (listener : Listener L) (waits : Bool),
    service.id = id → r.serve (.subscribe service listener) waits =
      (r, some (.settled (.error (.unknownService service.name))))
  confirm_refused : ∀ (name : String) (waits : Bool), r.serve (.confirm id name) waits =
    (r, some (.settled (.error (.unknownService name))))

end Registry

/-- Somebody asked for this subscription on behalf of its service. -/
def Requested {L : Type} (qs : List (Request L)) (s : Subscription L) : Prop :=
  ∃ q ∈ qs, ∃ service, q.command = .subscribe service s.listener ∧ service.id = s.service.id

theorem Requested.concat {L : Type} {qs : List (Request L)} {s : Subscription L}
    (hs : Requested qs s) (q : Request L) : Requested (qs ++ [q]) s := by
  obtain ⟨q', hmem, hq'⟩ := hs
  exact ⟨q', List.mem_append_left _ hmem, hq'⟩

namespace History

variable {L : Type} {h : History L}

/-- What was decided about a number stays decided. -/
theorem Sound.stage_extend (hs : h.Sound) {id : ServiceId} (hfinal : (h.stage id).IsFinal)
    (q : Request L) : (h.extend q).stage id = h.stage id := by
  have hmove (other : ServiceId) (stage : Stage) (hother : ¬ (h.stage other).IsFinal) :
      (h.move other stage).stage id = h.stage id := by
    rw [move_stage, if_neg]
    rintro rfl
    exact hother hfinal
  obtain ⟨command, waits⟩ := q
  cases command with
  | reserve name =>
      exact hmove ⟨h.issued + 1⟩ _ (by simp [hs.stage_next, Stage.IsFinal])
  | subscribe service listener =>
      simp only [History.extend]
      split <;> rfl
  | confirm target name =>
      simp only [History.extend]
      split
      · rename_i owner hpending
        exact hmove target _ (by simp [hpending, Stage.IsFinal])
      · rfl
  | discard target =>
      simp only [History.extend]
      split
      · rename_i owner hpending
        exact hmove target _ (by simp [hpending, Stage.IsFinal])
      · rfl
  | snapshot kind => rfl
  | services => rfl

theorem Sound.stage_foldl (hs : h.Sound) {id : ServiceId} (hfinal : (h.stage id).IsFinal)
    (qs : List (Request L)) : (qs.foldl History.extend h).stage id = h.stage id := by
  induction qs generalizing h with
  | nil => rfl
  | cons q rest ih =>
      have hstage := hs.stage_extend hfinal q
      exact (ih (hs.extend q) (hstage ▸ hfinal)).trans hstage

theorem Sound.le_issued (hs : h.Sound) {id : ServiceId} (hstage : h.stage id ≠ .unissued) :
    id.val ≤ h.issued := by
  have hiff := hs.unissued_iff id
  by_contra hlt
  exact hstage (hiff.mpr (Or.inr (by omega)))

/-- Everything that a history holds was asked for. -/
structure Told (qs : List (Request L)) (h : History L) : Prop where
  made : ∀ id, ∀ s ∈ h.made id, Requested qs s
  log : ∀ s ∈ h.log, Requested qs s

theorem Told.subscribed {qs : List (Request L)} (ht : Told qs h) (hs : h.Sound)
    (service : Handle) (listener : Listener L) (waits : Bool) :
    Told (qs ++ [⟨.subscribe service listener, waits⟩])
      (h.extend ⟨.subscribe service listener, waits⟩) := by
  have hnew (owner : Handle) (hid : owner.id = service.id) :
      Requested (qs ++ [⟨.subscribe service listener, waits⟩])
        ⟨owner, listener.expects, listener⟩ :=
    ⟨_, List.mem_append_right _ (List.mem_singleton_self _), service, rfl, hid.symm⟩
  have hmade (id : ServiceId) (s : Subscription L) (hmem : s ∈ h.made id) :=
    (ht.made id s hmem).concat ⟨.subscribe service listener, waits⟩
  have hlog (s : Subscription L) (hmem : s ∈ h.log) :=
    (ht.log s hmem).concat ⟨.subscribe service listener, waits⟩
  simp only [extend]
  split
  · rename_i owner hpending
    refine ⟨?_, hlog⟩
    intro id s hmem
    by_cases heq : id = service.id
    · subst heq
      simp only [Function.update_self, List.mem_append, List.mem_singleton] at hmem
      rcases hmem with hold | rfl
      · exact hmade _ s hold
      · exact hnew owner (hs.pending_id _ owner hpending)
    · simp only [Function.update_of_ne heq] at hmem
      exact hmade id s hmem
  · rename_i owner hadmitted
    refine ⟨hmade, ?_⟩
    intro s hmem
    rcases List.mem_append.mp hmem with hold | hlast
    · exact hlog s hold
    · rw [List.mem_singleton.mp hlast]
      exact hnew owner (hs.admitted_id _ owner hadmitted)
  · exact ⟨hmade, hlog⟩

theorem Told.extend {qs : List (Request L)} (ht : Told qs h) (hs : h.Sound) (q : Request L) :
    Told (qs ++ [q]) (h.extend q) := by
  have hkept : Told (qs ++ [q]) h :=
    ⟨fun id s hmem => (ht.made id s hmem).concat q, fun s hmem => (ht.log s hmem).concat q⟩
  obtain ⟨command, waits⟩ := q
  cases command with
  | reserve name => exact ⟨hkept.made, hkept.log⟩
  | subscribe service listener => exact ht.subscribed hs service listener waits
  | confirm id name =>
      simp only [History.extend]
      split
      · refine ⟨hkept.made, ?_⟩
        intro s hmem
        rcases List.mem_append.mp hmem with hold | hmade
        · exact hkept.log s hold
        · exact hkept.made id s hmade
      · exact hkept
  | discard id =>
      simp only [History.extend]
      split
      · exact ⟨hkept.made, hkept.log⟩
      · exact hkept
  | snapshot kind => exact hkept
  | services => exact hkept

theorem told_of (qs : List (Request L)) : Told qs (of qs) := by
  induction qs using List.reverseRecOn with
  | nil => exact ⟨by simp [of], by simp [of]⟩
  | append_singleton qs q ih =>
      rw [of_concat]
      exact ih.extend (sound_of qs) q

end History

namespace Agrees

variable {L : Type} {r : Registry L} {h : History L}

/-- Every pending entry is the one its number accounts for. -/
theorem pending_entry (ha : Agrees r h) {entry : ServiceId × Pending L}
    (hmem : entry ∈ r.pending) :
    ∃ owner, h.stage entry.1 = .pending owner ∧
      entry.2 = { handle := owner, subscriptions := h.made entry.1 } := by
  have hlookup := Lookup.lookup_of_mem ha.keys_nodup hmem
  rw [ha.lookup_pending, History.slot?] at hlookup
  split at hlookup
  · rename_i owner hpending
    exact ⟨owner, hpending, by simpa using hlookup.symm⟩
  · cases hlookup

theorem coherent (ha : Agrees r h) (hs : h.Sound) : r.Coherent := by
  refine ⟨ha.keys_nodup, ?services_nodup, ?disjoint, ?pending_le, ?services_le,
    ?pending_keyed, ?pending_owned, ?table_owned⟩
  case services_nodup =>
    rw [ha.services_eq]
    exact hs.admitted_nodup
  case disjoint =>
    intro entry hentry owner howner
    obtain ⟨_, hpending, -⟩ := ha.pending_entry hentry
    rw [ha.services_eq] at howner
    exact hs.not_admitted (by simp [hpending]) howner
  case pending_le =>
    intro entry hentry
    obtain ⟨_, hpending, -⟩ := ha.pending_entry hentry
    rw [ha.issued]
    exact hs.le_issued (by simp [hpending])
  case services_le =>
    intro owner howner
    rw [ha.services_eq, hs.mem_admitted_iff] at howner
    rw [ha.issued]
    exact hs.le_issued (by simp [howner])
  case pending_keyed =>
    intro entry hentry
    obtain ⟨owner, hpending, hvalue⟩ := ha.pending_entry hentry
    rw [hvalue]
    exact hs.pending_id _ owner hpending
  case pending_owned =>
    intro entry hentry s hmem
    obtain ⟨owner, hpending, hvalue⟩ := ha.pending_entry hentry
    rw [hvalue] at hmem ⊢
    exact (hs.made_owned _ owner hpending s hmem).1
  case table_owned =>
    intro kind s hmem
    rw [ha.get_table, List.mem_filter] at hmem
    obtain ⟨hlog, hkind⟩ := hmem
    rw [ha.services_eq]
    exact ⟨of_decide_eq_true hkind, (hs.log_owned s hlog).1⟩

theorem stage_of_drops (ha : Agrees r h) {q : Request L} {id : ServiceId} (hq : r.Drops q id) :
    (h.extend q).stage id = .discarded := by
  obtain ⟨command, waits⟩ := q
  cases command with
  | reserve name =>
      obtain ⟨hwaits, hid⟩ := hq
      obtain rfl : waits = false := hwaits
      rw [hid, ha.issued]
      simp [History.extend, History.move_stage]
  | discard target =>
      obtain ⟨rfl, hpending⟩ := hq
      rw [ha.lookup_pending, History.slot?] at hpending
      split at hpending
      · rename_i owner hstage
        simp [History.extend, hstage, History.move_stage]
      · cases hpending
  | subscribe => exact hq.elim
  | confirm => exact hq.elim
  | snapshot => exact hq.elim
  | services => exact hq.elim

theorem gone (ha : Agrees r h) (hs : h.Sound) {id : ServiceId}
    (hdiscarded : h.stage id = .discarded) : r.Gone id := by
  have hpending : ∀ owner, h.stage id ≠ .pending owner := by simp [hdiscarded]
  have hadmitted : ∀ owner, h.stage id ≠ .admitted owner := by simp [hdiscarded]
  have hservices : ∀ owner ∈ r.services, owner.id ≠ id := by
    intro owner hmem
    rw [ha.services_eq] at hmem
    exact hs.not_admitted hadmitted hmem
  refine ⟨?not_pending, hservices, ?unheard, ?subscribe_refused, ?confirm_refused⟩
  case not_pending =>
    rintro entry hentry rfl
    obtain ⟨owner, hstage, -⟩ := ha.pending_entry hentry
    exact hpending owner hstage
  case unheard =>
    intro kind s hmem
    exact hservices _ ((ha.coherent hs).table_owned kind s hmem).2
  case subscribe_refused =>
    rintro service listener waits rfl
    simp only [Registry.serve, Registry.apply,
      ha.subscribe_unknown hs hpending hadmitted listener]
  case confirm_refused =>
    intro name waits
    simp only [Registry.serve, Registry.apply, ha.confirm_unknown hpending name]

end Agrees

/-- Registration gating. Whatever a registry was asked, its books are coherent;
every subscription that a snapshot shows was asked for on behalf of an admitted
service; and a number that was once given up is gone for good. -/
theorem registration_gating {L : Type} (qs : List (Request L)) :
    (Registry.run {} qs).Coherent ∧
    (∀ kind, ∀ s ∈ (Registry.run {} qs).snapshot kind,
      s.service ∈ (Registry.run {} qs).services ∧ Requested qs s) ∧
    (∀ before q later id, qs = before ++ q :: later → (Registry.run {} before).Drops q id →
      (Registry.run {} qs).Gone id) := by
  have ha := Agrees.of_run qs
  have hs := History.sound_of qs
  refine ⟨ha.coherent hs, ?_, ?_⟩
  · intro kind s hmem
    refine ⟨((ha.coherent hs).table_owned kind s hmem).2, ?_⟩
    rw [Registry.snapshot, ha.get_table, List.mem_filter] at hmem
    exact (History.told_of qs).log s hmem.1
  · intro before q later id hqs hdrops
    have hdropped := (Agrees.of_run before).stage_of_drops hdrops
    apply ha.gone hs
    rw [hqs, History.of_append, List.foldl_cons,
      ((History.sound_of before).extend q).stage_foldl (hdropped ▸ trivial), hdropped]

/-- A service subscribes, is discarded, and asks again with its old handle. -/
theorem registration_gating_stale_handle :
    let service : Handle := ⟨⟨1⟩, "index"⟩
    let listener : Listener Unit := ⟨.applicationStartup, ()⟩
    (Registry.run {}
      [⟨.reserve "index", true⟩, ⟨.subscribe service listener, true⟩, ⟨.discard ⟨1⟩, true⟩,
        ⟨.subscribe service listener, true⟩, ⟨.confirm ⟨1⟩ "index", true⟩]).Gone ⟨1⟩ :=
  (registration_gating _).2.2
    [⟨.reserve "index", true⟩, ⟨.subscribe ⟨⟨1⟩, "index"⟩ ⟨.applicationStartup, ()⟩, true⟩]
    ⟨.discard ⟨1⟩, true⟩ _ ⟨1⟩ rfl ⟨rfl, rfl⟩

end EventHub
