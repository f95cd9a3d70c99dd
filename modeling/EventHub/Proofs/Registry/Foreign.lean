import EventHub.Proofs.Registry.CommitOrder
import EventHub.Proofs.Registry.Gating
import EventHub.Scenario

/-!
Handles that another broker gave out. Every broker numbers its services from one,
and a subscription is entered for whoever has the number of the handle that it
names. So a handle is worth at a broker what its number is worth there: it is
refused if no service has that number, and otherwise it stands for the service
that has it, whatever that one is called.
-/

namespace EventHub

namespace Registry

variable {L : Type}

/-- A service that a subscription can be entered for. -/
def Knows (r : Registry L) (owner : Handle) : Prop :=
  owner ∈ r.services ∨ ∃ p, r.pending.lookup owner.id = some p ∧ p.handle = owner

end Registry

namespace History

variable {L : Type} {h : History L}

/-- What became of a subscription that was accepted. -/
inductive Accounts (h : History L) (s : Subscription L) : Prop where
  /-- It stays with its service until that is confirmed. -/
  | waiting (hpending : h.stage s.service.id = .pending s.service)
      (hmade : s ∈ h.made s.service.id)
  | committed (hlog : s ∈ h.log)
  /-- It went with its service. -/
  | lost (hdiscarded : h.stage s.service.id = .discarded)

/-- What was made for a service stays there when more is made. -/
theorem mem_made_extend_subscribe {id : ServiceId} {s : Subscription L} (hmade : s ∈ h.made id)
    (service : Handle) (listener : Listener L) (waits : Bool) :
    s ∈ (h.extend ⟨.subscribe service listener, waits⟩).made id := by
  simp only [extend]
  split
  · by_cases hid : id = service.id
    · subst hid
      simpa using Or.inl hmade
    · simpa [Function.update_of_ne hid] using hmade
  · exact hmade
  · exact hmade

/-- Nothing is forgotten: what waits goes on waiting, unless its service is
confirmed, which commits it, or discarded. -/
theorem Accounts.extend (hs : h.Sound) {s : Subscription L} (ha : h.Accounts s)
    (q : Request L) : (h.extend q).Accounts s := by
  cases ha with
  | committed hlog =>
      apply Accounts.committed
      rw [log_extend]
      exact List.mem_append_left _ hlog
  | lost hdiscarded =>
      apply Accounts.lost
      rw [hs.stage_extend (by rw [hdiscarded]; trivial), hdiscarded]
  | waiting hpending hmade =>
      have hstays (stage : Stage) (id : ServiceId) (hne : s.service.id ≠ id) :
          (h.move id stage).stage s.service.id = .pending s.service := by
        rw [move_stage, if_neg hne, hpending]
      obtain ⟨command, waits⟩ := q
      cases command with
      | reserve name =>
          have hne : s.service.id ≠ ⟨h.issued + 1⟩ := by
            intro heq
            rw [heq, hs.stage_next] at hpending
            cases hpending
          exact .waiting (hstays _ _ hne) hmade
      | subscribe service listener =>
          refine .waiting ?_ (mem_made_extend_subscribe hmade service listener waits)
          simp only [History.extend]
          split <;> exact hpending
      | confirm id name =>
          by_cases hid : s.service.id = id
          · subst hid
            apply Accounts.committed
            rw [log_extend]
            simp only [commits, hpending]
            exact List.mem_append_right _ hmade
          · simp only [History.extend]
            split
            · exact .waiting (hstays _ _ hid) hmade
            · exact .waiting hpending hmade
      | discard id =>
          by_cases hid : s.service.id = id
          · subst hid
            apply Accounts.lost
            simp only [History.extend, hpending]
            rw [move_stage, if_pos rfl]
          · simp only [History.extend]
            split
            · exact .waiting (hstays _ _ hid) hmade
            · exact .waiting hpending hmade
      | snapshot kind => exact .waiting hpending hmade
      | services => exact .waiting hpending hmade

theorem Accounts.foldl (hs : h.Sound) {s : Subscription L} (ha : h.Accounts s)
    (qs : List (Request L)) : (qs.foldl History.extend h).Accounts s := by
  induction qs generalizing h with
  | nil => exact ha
  | cons q rest ih => exact ih (hs.extend q) (ha.extend hs q)

/-- Once its service is admitted, an accepted subscription is committed. -/
theorem Accounts.committed_of_admitted (hs : h.Sound) {s : Subscription L} (ha : h.Accounts s)
    (hadmitted : s.service ∈ h.admitted) : s ∈ h.log := by
  have hstage := (hs.mem_admitted_iff s.service).mp hadmitted
  cases ha with
  | waiting hpending hmade => cases hpending.symm.trans hstage
  | committed hlog => exact hlog
  | lost hdiscarded => cases hdiscarded.symm.trans hstage

end History

namespace Agrees

variable {L : Type} {r : Registry L} {h : History L}

theorem knows_iff (ha : Agrees r h) (hs : h.Sound) (owner : Handle) :
    r.Knows owner ↔ h.stage owner.id = .pending owner ∨ h.stage owner.id = .admitted owner := by
  rw [Registry.Knows, ha.services_eq, hs.mem_admitted_iff, ha.lookup_pending, History.slot?]
  constructor
  · rintro (hadmitted | ⟨p, hslot, hhandle⟩)
    · exact Or.inr hadmitted
    · split at hslot
      · rename_i pending hpending
        cases hslot
        exact Or.inl (hhandle ▸ hpending)
      · cases hslot
  · rintro (hpending | hadmitted)
    · exact Or.inr ⟨_, by rw [hpending], rfl⟩
    · exact Or.inl hadmitted

/-- A handle whose number nobody has is refused. -/
theorem subscribe_unheld (ha : Agrees r h) (hs : h.Sound) {service : Handle}
    (hnobody : ∀ owner, r.Knows owner → owner.id ≠ service.id) (listener : Listener L) :
    r.subscribe service listener = (r, .error (.unknownService service.name)) := by
  apply ha.subscribe_unknown hs
  · intro owner hpending
    have hid := hs.pending_id service.id owner hpending
    exact hnobody owner ((ha.knows_iff hs owner).mpr (Or.inl (hid ▸ hpending))) hid
  · intro owner hadmitted
    have hid := hs.admitted_id service.id owner hadmitted
    exact hnobody owner ((ha.knows_iff hs owner).mpr (Or.inr (hid ▸ hadmitted))) hid

/-- A handle whose number somebody has is accepted on behalf of that one. -/
theorem subscribe_held (ha : Agrees r h) (hs : h.Sound) {service owner : Handle}
    (howner : r.Knows owner) (hid : owner.id = service.id) (listener : Listener L)
    (waits : Bool) :
    (r.subscribe service listener).2 = .ok () ∧
      (h.extend ⟨.subscribe service listener, waits⟩).Accounts
        ⟨owner, listener.expects, listener⟩ := by
  rcases (ha.knows_iff hs owner).mp howner with hstage | hstage
  · have hstanding : r.standing service.id = .pending owner := by
      rw [ha.standing_eq hs, ← hid, hstage]
    refine ⟨by simp [Registry.subscribe, hstanding], ?_⟩
    rw [hid] at hstage
    have hextend : h.extend ⟨.subscribe service listener, waits⟩ =
        { h with
          made := Function.update h.made service.id
            (h.made service.id ++ [⟨owner, listener.expects, listener⟩]) } := by
      simp only [History.extend, hstage]
    rw [hextend]
    exact .waiting (by simpa [hid] using hstage) (by simp [hid])
  · have hstanding : r.standing service.id = .registered owner := by
      rw [ha.standing_eq hs, ← hid, hstage]
    refine ⟨by simp [Registry.subscribe, hstanding], ?_⟩
    rw [hid] at hstage
    apply History.Accounts.committed
    rw [History.log_extend]
    simp [History.commits, hstage]

end Agrees

open EventHub.Script EventHub.Simulation

namespace Scenario

/-- A service of each of two brokers, and a listener that is subscribed at the
second one for the service of the first. -/
def subscribesElsewhere : List Step :=
  [.control (.newBroker {}),
    .broker 0 (.register (.scripted "index" [] .done none) (some "mine")),
    .broker 1 (.register (.scripted "search" [] .done none) none),
    .broker 1 (.listen ⟨.applicationStartup, "heard", [], .done, none⟩ (some "mine")),
    .broker 1 (.fire .startup)]

/-- The world after that listener was subscribed and an event fired. -/
def elsewhere : World := ((subscribesElsewhere.mapM (runStep none)).run (start {})).2

end Scenario

/-- The listener that a step made heard. -/
def Script.Seen.tag : Seen → String
  | .called tag _ => tag
  | .inside tag _ => tag
  | .settingUp service _ => service

/-- A handle is worth its number. If no service of a broker has the number, then a
subscription for the handle is refused, and it is as if it was not asked for. If
one has it, the subscription is accepted and belongs to that one: whenever that
service is admitted, then or later, its snapshots show it. -/
theorem handle_worth {L : Type} (qs : List (Request L)) (service : Handle)
    (listener : Listener L) (waits : Bool) :
    ((∀ owner, (Registry.run {} qs).Knows owner → owner.id ≠ service.id) →
      (Registry.run {} qs).serve (.subscribe service listener) waits =
        (Registry.run {} qs, some (.settled (.error (.unknownService service.name)))) ∧
      ∀ later, Registry.run {} (qs ++ ⟨.subscribe service listener, waits⟩ :: later) =
        Registry.run {} (qs ++ later)) ∧
    (∀ owner, (Registry.run {} qs).Knows owner → owner.id = service.id →
      ((Registry.run {} qs).serve (.subscribe service listener) waits).2 =
        some (.settled (.ok ())) ∧
      ∀ later, let later := qs ++ ⟨.subscribe service listener, waits⟩ :: later
        owner ∈ (Registry.run {} later).services →
          ⟨owner, listener.expects, listener⟩ ∈
            (Registry.run {} later).snapshot listener.expects) := by
  have ha := Agrees.of_run qs
  have hs := History.sound_of qs
  constructor
  · intro hnobody
    have hrefused := ha.subscribe_unheld hs hnobody listener
    refine ⟨by simp only [Registry.serve, Registry.apply, hrefused], ?_⟩
    intro later
    have hafter : (Registry.run {} qs).after ⟨.subscribe service listener, waits⟩ =
        Registry.run {} qs := by rw [Registry.after_subscribe, hrefused]
    rw [Registry.run_append, Registry.run_append]
    exact congrArg (Registry.run · later) hafter
  · intro owner howner hid
    obtain ⟨hok, haccounts⟩ := ha.subscribe_held hs howner hid listener waits
    refine ⟨by simp only [Registry.serve, Registry.apply, hok], ?_⟩
    intro later all hadmitted
    have ha' := Agrees.of_run all
    have hs' := History.sound_of all
    have hkept : (History.of all).Accounts ⟨owner, listener.expects, listener⟩ := by
      rw [History.of_append]
      exact haccounts.foldl (hs.extend _) later
    rw [ha'.services_eq] at hadmitted
    rw [ha'.snapshot_eq, List.mem_filter]
    exact ⟨hkept.committed_of_admitted hs' hadmitted, by simp⟩

/-- Both services have the number one. The second broker takes the handle of the
first one's, enters the listener for its own service, and calls it. -/
theorem foreign_handle_heard :
    let w := Scenario.elsewhere
    w.handles = [("mine", ⟨⟨1⟩, "index"⟩)] ∧
    (w.brokers.toList.map (·.registry.services)) =
      [[⟨⟨1⟩, "index"⟩], [⟨⟨1⟩, "search"⟩]] ∧
    (w.brokers.toList.map fun b =>
      (b.registry.snapshot .applicationStartup).map (·.service)) =
      [[], [⟨⟨1⟩, "search"⟩]] ∧
    w.seen.map (·.tag) = ["heard"] := by
  decide +kernel

end EventHub
