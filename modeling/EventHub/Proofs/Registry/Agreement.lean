import EventHub.Proofs.Registry.History

/-!
The registry agrees with the history of its requests, whatever they are and in
whatever order they come: its pending entries hold what was subscribed for the
pending services, and the table of each kind is that kind's part of the one
commit log.
-/

namespace EventHub

namespace PerKind

variable {α : Type}

theorem get_modify (p : PerKind α) (f : α → α) (changed kind : EventKind) :
    (p.modify f changed).get kind = if kind = changed then f (p.get kind) else p.get kind := by
  cases changed <;> cases kind <;> rfl

end PerKind

namespace Registry

variable {L : Type}

theorem get_enter (table : PerKind (List (Subscription L))) (s : Subscription L)
    (kind : EventKind) :
    (enter table s).get kind = table.get kind ++ [s].filter (·.kind = kind) := by
  rw [enter, PerKind.get_modify]
  by_cases h : kind = s.kind
  · simp [h]
  · have h' : s.kind ≠ kind := fun heq => h heq.symm
    simp [h, h']

theorem get_foldl_enter (subscriptions : List (Subscription L))
    (table : PerKind (List (Subscription L))) (kind : EventKind) :
    (subscriptions.foldl enter table).get kind =
      table.get kind ++ subscriptions.filter (·.kind = kind) := by
  induction subscriptions generalizing table with
  | nil => simp
  | cons s rest ih =>
      rw [List.foldl_cons, ih, get_enter, List.append_assoc, ← List.filter_append]
      rfl

theorem after_reserve (r : Registry L) (name : String) (waits : Bool) :
    r.after ⟨.reserve name, waits⟩ =
      if waits then (r.reserve name).1
      else (r.reserve name).1.discard (r.reserve name).2.id := rfl

theorem after_subscribe (r : Registry L) (service : Handle) (listener : Listener L)
    (waits : Bool) :
    r.after ⟨.subscribe service listener, waits⟩ = (r.subscribe service listener).1 := rfl

theorem after_confirm (r : Registry L) (id : ServiceId) (name : String) (waits : Bool) :
    r.after ⟨.confirm id name, waits⟩ = (r.confirm id name).1 := rfl

theorem after_discard (r : Registry L) (id : ServiceId) (waits : Bool) :
    r.after ⟨.discard id, waits⟩ = r.discard id := rfl

end Registry

namespace History

variable {L : Type}

/-- The pending entry that a history accounts for. -/
def slot? (h : History L) (id : ServiceId) : Option (Pending L) :=
  match h.stage id with
  | .pending owner => some { handle := owner, subscriptions := h.made id }
  | _ => none

theorem slot?_of_pending {h : History L} {id : ServiceId} {owner : Handle}
    (hpending : h.stage id = .pending owner) :
    h.slot? id = some { handle := owner, subscriptions := h.made id } := by
  simp [slot?, hpending]

theorem slot?_eq_none {h : History L} {id : ServiceId}
    (hstage : ∀ owner, h.stage id ≠ .pending owner) : h.slot? id = none := by
  rw [slot?]
  split
  · rename_i owner hpending
    exact absurd hpending (hstage owner)
  · rfl

theorem slot?_move (h : History L) (id other : ServiceId) {stage : Stage}
    (hfinal : stage.IsFinal) :
    (h.move id stage).slot? other = if other = id then none else h.slot? other := by
  by_cases heq : other = id
  · rw [if_pos heq]
    apply slot?_eq_none
    intro owner hpending
    rw [move_stage, if_pos heq] at hpending
    exact (hpending ▸ hfinal : Stage.IsFinal (.pending owner))
  · simp [slot?, move_stage, heq]

end History

/-- The books say what the history accounts for. -/
structure Agrees {L : Type} (r : Registry L) (h : History L) : Prop where
  issued : r.lastId = h.issued
  keys_nodup : (r.pending.map Prod.fst).Nodup
  lookup_pending : ∀ id, r.pending.lookup id = h.slot? id
  services_eq : r.services = h.admitted
  get_table : ∀ kind, r.table.get kind = h.log.filter (·.kind = kind)

namespace Agrees

variable {L : Type} {r : Registry L} {h : History L}

theorem empty : Agrees ({} : Registry L) {} where
  issued := rfl
  keys_nodup := by simp
  lookup_pending _ := rfl
  services_eq := rfl
  get_table kind := by cases kind <;> rfl

theorem find_service (ha : Agrees r h) (hs : h.Sound) (id : ServiceId) :
    r.services.find? (·.id = id) =
      match h.stage id with
      | .admitted owner => some owner
      | _ => none := by
  rw [ha.services_eq]
  have hnone (hstage : ∀ owner, h.stage id ≠ .admitted owner) :
      h.admitted.find? (·.id = id) = none := by
    apply List.find?_eq_none.mpr
    intro owner hmem
    simpa using hs.not_admitted hstage hmem
  cases hstage : h.stage id with
  | admitted owner =>
      have hid : owner.id = id := hs.admitted_id id owner hstage
      have hmem : owner ∈ h.admitted := (hs.mem_admitted_iff owner).mpr (hid ▸ hstage)
      have hsome : (h.admitted.find? (·.id = id)).isSome := by
        rw [List.find?_isSome]
        exact ⟨owner, hmem, by simpa using hid⟩
      obtain ⟨found, hfound⟩ := Option.isSome_iff_exists.mp hsome
      have hfoundId : found.id = id := by simpa using List.find?_some hfound
      have hfoundStage := (hs.mem_admitted_iff found).mp (List.mem_of_find?_eq_some hfound)
      rw [hfoundId, hstage] at hfoundStage
      rw [hfound]
      simpa using hfoundStage.symm
  | unissued => exact hnone (by simp [hstage])
  | pending owner => exact hnone (by simp [hstage])
  | discarded => exact hnone (by simp [hstage])

/-- What the registry thinks of a number is what became of it. -/
theorem standing_eq (ha : Agrees r h) (hs : h.Sound) (id : ServiceId) :
    r.standing id =
      match h.stage id with
      | .pending owner => .pending owner
      | .admitted owner => .registered owner
      | _ => .unknown := by
  rw [Registry.standing, ha.lookup_pending, History.slot?, ha.find_service hs]
  cases h.stage id <;> rfl

/-- The entries that stay pending when one number is withdrawn. -/
theorem lookup_withdraw (ha : Agrees r h) (id other : ServiceId) :
    (r.withdraw id).pending.lookup other = if other = id then none else h.slot? other := by
  rw [Registry.withdraw, Lookup.lookup_filter_ne, ha.lookup_pending]

theorem keys_withdraw (ha : Agrees r h) (id : ServiceId) :
    ((r.withdraw id).pending.map Prod.fst).Nodup :=
  ha.keys_nodup.sublist (List.filter_sublist.map _)

theorem reserve (ha : Agrees r h) (hs : h.Sound) (name : String) :
    Agrees (r.reserve name).1
      ({ h with issued := h.issued + 1 }.move ⟨h.issued + 1⟩
        (.pending ⟨⟨h.issued + 1⟩, name⟩)) := by
  have hfree : r.pending.lookup ⟨h.issued + 1⟩ = none := by
    rw [ha.lookup_pending]
    exact History.slot?_eq_none (by simp [hs.stage_next])
  have hmade : h.made ⟨h.issued + 1⟩ = [] := hs.made_unissued _ hs.stage_next
  constructor
  case issued => simp [Registry.reserve, ha.issued]
  case keys_nodup =>
    simp only [Registry.reserve, ha.issued, List.map_append, List.map_cons, List.map_nil,
      List.nodup_append]
    refine ⟨ha.keys_nodup, by simp, ?_⟩
    intro a hmem b hb heq
    obtain ⟨entry, hentry, rfl⟩ := List.mem_map.mp hmem
    have hne := List.lookup_eq_none_iff.mp hfree entry hentry
    simp [heq, List.mem_singleton.mp hb] at hne
  case lookup_pending =>
    intro id
    simp only [Registry.reserve, ha.issued, List.lookup_append, ha.lookup_pending]
    by_cases heq : id = ⟨h.issued + 1⟩
    · subst heq
      rw [← ha.lookup_pending, hfree]
      simp [History.slot?, History.move_stage, hmade]
    · have hb : (id == (⟨h.issued + 1⟩ : ServiceId)) = false := by simpa using heq
      simp [History.slot?, History.move_stage, heq, List.lookup_cons, hb]
  case services_eq => exact ha.services_eq
  case get_table => exact ha.get_table

/-- A number that is given up is in no entry any more. -/
theorem discard (ha : Agrees r h) (id : ServiceId) :
    Agrees (r.discard id) (h.move id .discarded) where
  issued := ha.issued
  keys_nodup := ha.keys_withdraw id
  lookup_pending other := by
    rw [Registry.discard, ha.lookup_withdraw,
      History.slot?_move h id other (show Stage.discarded.IsFinal from trivial)]
  services_eq := ha.services_eq
  get_table := ha.get_table

/-- Discarding a number without a pending entry changes nothing. -/
theorem discard_unknown (ha : Agrees r h) {id : ServiceId}
    (hstage : ∀ owner, h.stage id ≠ .pending owner) : r.discard id = r := by
  have hnone : r.pending.lookup id = none := by
    rw [ha.lookup_pending]
    exact History.slot?_eq_none hstage
  have hkept : r.pending.filter (·.1 ≠ id) = r.pending := by
    apply List.filter_eq_self.mpr
    intro entry hmem
    have hne : id ≠ entry.1 := by simpa using List.lookup_eq_none_iff.mp hnone entry hmem
    simpa using hne.symm
  rw [Registry.discard, Registry.withdraw, hkept]

theorem subscribe_pending (ha : Agrees r h) (hs : h.Sound) {service owner : Handle}
    (hpending : h.stage service.id = .pending owner) (listener : Listener L) :
    Agrees (r.subscribe service listener).1
      { h with
        made := Function.update h.made service.id
          (h.made service.id ++ [⟨owner, listener.expects, listener⟩]) } := by
  have hstanding : r.standing service.id = .pending owner := by
    rw [ha.standing_eq hs, hpending]
  let keep : Pending L → Pending L := fun p =>
    { p with subscriptions := p.subscriptions ++ [⟨owner, listener.expects, listener⟩] }
  constructor
  case issued => simpa [Registry.subscribe, hstanding] using ha.issued
  case keys_nodup =>
    simp only [Registry.subscribe, hstanding]
    rw [Lookup.keys_map_at r.pending service.id keep]
    exact ha.keys_nodup
  case lookup_pending =>
    intro id
    simp only [Registry.subscribe, hstanding]
    rw [Lookup.lookup_map_at r.pending service.id id keep, ha.lookup_pending]
    by_cases heq : id = service.id
    · subst heq
      simp [History.slot?, hpending, keep]
    · simp [History.slot?, heq]
  case services_eq => simpa [Registry.subscribe, hstanding] using ha.services_eq
  case get_table => simpa [Registry.subscribe, hstanding] using ha.get_table

theorem subscribe_admitted (ha : Agrees r h) (hs : h.Sound) {service owner : Handle}
    (hadmitted : h.stage service.id = .admitted owner) (listener : Listener L) :
    Agrees (r.subscribe service listener).1
      { h with log := h.log ++ [⟨owner, listener.expects, listener⟩] } := by
  have hstanding : r.standing service.id = .registered owner := by
    rw [ha.standing_eq hs, hadmitted]
  constructor
  case issued => simpa [Registry.subscribe, hstanding] using ha.issued
  case keys_nodup => simpa [Registry.subscribe, hstanding] using ha.keys_nodup
  case lookup_pending =>
    intro id
    simp only [Registry.subscribe, hstanding]
    exact ha.lookup_pending id
  case services_eq => simpa [Registry.subscribe, hstanding] using ha.services_eq
  case get_table =>
    intro kind
    simp only [Registry.subscribe, hstanding]
    rw [Registry.get_enter, ha.get_table, ← List.filter_append]

/-- A service that nobody is pending or admitted under is refused, and the books
stay as they are. -/
theorem subscribe_unknown (ha : Agrees r h) (hs : h.Sound) {service : Handle}
    (hpending : ∀ owner, h.stage service.id ≠ .pending owner)
    (hadmitted : ∀ owner, h.stage service.id ≠ .admitted owner) (listener : Listener L) :
    r.subscribe service listener = (r, .error (.unknownService service.name)) := by
  have hstanding : r.standing service.id = .unknown := by
    rw [ha.standing_eq hs]
    cases hstage : h.stage service.id with
    | pending owner => exact absurd hstage (hpending owner)
    | admitted owner => exact absurd hstage (hadmitted owner)
    | unissued => rfl
    | discarded => rfl
  simp [Registry.subscribe, hstanding]

theorem confirm_pending (ha : Agrees r h) {id : ServiceId} {owner : Handle}
    (hpending : h.stage id = .pending owner) (name : String) :
    Agrees (r.confirm id name).1
      ({ h with log := h.log ++ h.made id, admitted := h.admitted ++ [owner] }.move id
        (.admitted owner)) := by
  have hlookup : r.pending.lookup id = some { handle := owner, subscriptions := h.made id } := by
    rw [ha.lookup_pending, History.slot?_of_pending hpending]
  constructor
  case issued => simpa [Registry.confirm, hlookup, Registry.withdraw] using ha.issued
  case keys_nodup => simpa [Registry.confirm, hlookup] using ha.keys_withdraw id
  case lookup_pending =>
    intro other
    have hslot := History.slot?_move h id other (show (Stage.admitted owner).IsFinal from trivial)
    simp only [Registry.confirm, hlookup]
    exact (ha.lookup_withdraw id other).trans hslot.symm
  case services_eq => simp [Registry.confirm, hlookup, ha.services_eq]
  case get_table =>
    intro kind
    simp only [Registry.confirm, hlookup, Registry.get_foldl_enter, ha.get_table]
    exact (List.filter_append _ _).symm

theorem confirm_unknown (ha : Agrees r h) {id : ServiceId}
    (hpending : ∀ owner, h.stage id ≠ .pending owner) (name : String) :
    r.confirm id name = (r, .error (.unknownService name)) := by
  have hlookup : r.pending.lookup id = none := by
    rw [ha.lookup_pending, History.slot?_eq_none hpending]
  simp [Registry.confirm, hlookup]

/-- One request keeps the books and the history in agreement. -/
theorem after (ha : Agrees r h) (hs : h.Sound) (q : Request L) :
    Agrees (r.after q) (h.extend q) := by
  obtain ⟨command, waits⟩ := q
  cases command with
  | reserve name =>
      cases waits with
      | true => exact ha.reserve hs name
      | false =>
          have hreserved := (ha.reserve hs name).discard ⟨h.issued + 1⟩
          have hid : (r.reserve name).2.id = ⟨h.issued + 1⟩ := by simp [Registry.reserve, ha.issued]
          rw [Registry.after_reserve]
          simp only [Bool.false_eq_true, if_false, hid]
          simpa [History.extend, History.move] using hreserved
  | subscribe service listener =>
      rw [Registry.after_subscribe]
      by_cases hpending : ∃ owner, h.stage service.id = .pending owner
      · obtain ⟨owner, hstage⟩ := hpending
        simpa [History.extend, hstage] using ha.subscribe_pending hs hstage listener
      by_cases hadmitted : ∃ owner, h.stage service.id = .admitted owner
      · obtain ⟨owner, hstage⟩ := hadmitted
        simpa [History.extend, hstage] using ha.subscribe_admitted hs hstage listener
      have hnot := not_exists.mp hpending
      have hnot' := not_exists.mp hadmitted
      rw [ha.subscribe_unknown hs hnot hnot', History.extend_subscribe_unknown hnot hnot']
      exact ha
  | confirm id name =>
      rw [Registry.after_confirm]
      by_cases hpending : ∃ owner, h.stage id = .pending owner
      · obtain ⟨owner, hstage⟩ := hpending
        simpa [History.extend, hstage] using ha.confirm_pending hstage name
      have hnot := not_exists.mp hpending
      rw [ha.confirm_unknown hnot, History.extend_confirm_unknown hnot]
      exact ha
  | discard id =>
      rw [Registry.after_discard]
      by_cases hpending : ∃ owner, h.stage id = .pending owner
      · obtain ⟨owner, hstage⟩ := hpending
        simpa [History.extend, hstage] using ha.discard id
      have hnot := not_exists.mp hpending
      rw [ha.discard_unknown hnot, History.extend_discard_unknown hnot]
      exact ha
  | snapshot kind => exact ha
  | services => exact ha

theorem run (ha : Agrees r h) (hs : h.Sound) (qs : List (Request L)) :
    Agrees (r.run qs) (qs.foldl History.extend h) := by
  induction qs generalizing r h with
  | nil => exact ha
  | cons q rest ih => exact ih (ha.after hs q) (hs.extend q)

/-- Whatever a registry was asked, its books say what the history of the requests
accounts for. -/
theorem of_run (qs : List (Request L)) : Agrees (Registry.run {} qs) (History.of qs) :=
  Agrees.empty.run History.sound_empty qs

end Agrees

end EventHub
