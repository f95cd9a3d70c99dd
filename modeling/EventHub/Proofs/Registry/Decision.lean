import EventHub.Proofs.Registry.CommitOrder
import EventHub.Proofs.Registry.Gating

/-!
Decisions about slots. A slot stays pending as long as nobody decides about it,
is decided once, and whoever sees anything of an admitted service sees all of what
it subscribed while it was pending.
-/

namespace EventHub

/-- The request confirms or discards the slot. -/
def Request.Decides {L : Type} (q : Request L) (id : ServiceId) : Prop :=
  match q.command with
  | .confirm target _ => target = id
  | .discard target => target = id
  | _ => False

namespace History

variable {L : Type} {h : History L}

theorem issued_le_extend (h : History L) (q : Request L) : h.issued ≤ (h.extend q).issued := by
  obtain ⟨command, waits⟩ := q
  cases command with
  | reserve name => exact Nat.le_succ _
  | subscribe service listener =>
      simp only [extend]
      split <;> exact Nat.le_refl _
  | confirm id name =>
      simp only [extend]
      split <;> exact Nat.le_refl _
  | discard id =>
      simp only [extend]
      split <;> exact Nat.le_refl _
  | snapshot kind => exact Nat.le_refl _
  | services => exact Nat.le_refl _

theorem issued_le_foldl (h : History L) (qs : List (Request L)) :
    h.issued ≤ (qs.foldl extend h).issued := by
  induction qs generalizing h with
  | nil => exact Nat.le_refl _
  | cons q rest ih => exact Nat.le_trans (h.issued_le_extend q) (ih (h.extend q))

/-- A number that was handed out is never free again. -/
theorem Sound.issued_extend (hs : h.Sound) {id : ServiceId} (hstage : h.stage id ≠ .unissued)
    (q : Request L) : (h.extend q).stage id ≠ .unissued := by
  intro hfree
  rw [(hs.extend q).unissued_iff] at hfree
  have hle := h.issued_le_extend q
  apply hstage
  rw [hs.unissued_iff]
  omega

theorem Sound.pending_extend (hs : h.Sound) {id : ServiceId} {owner : Handle}
    (hpending : h.stage id = .pending owner) {q : Request L} (hq : ¬ q.Decides id) :
    (h.extend q).stage id = .pending owner := by
  have hmove (target : ServiceId) (stage : Stage) (hne : target ≠ id) :
      (h.move target stage).stage id = .pending owner := by
    rw [move_stage, if_neg (Ne.symm hne), hpending]
  obtain ⟨command, waits⟩ := q
  cases command with
  | reserve name =>
      refine hmove ⟨h.issued + 1⟩ _ ?_
      rintro rfl
      rw [hs.stage_next] at hpending
      cases hpending
  | subscribe service listener =>
      simp only [History.extend]
      split <;> exact hpending
  | confirm target name =>
      simp only [History.extend]
      split
      · exact hmove target _ hq
      · exact hpending
  | discard target =>
      simp only [History.extend]
      split
      · exact hmove target _ hq
      · exact hpending
  | snapshot kind => exact hpending
  | services => exact hpending

/-- A slot stays pending as long as nobody decides about it. -/
theorem Sound.pending_foldl (hs : h.Sound) {id : ServiceId} {owner : Handle}
    (hpending : h.stage id = .pending owner) {qs : List (Request L)}
    (hqs : ∀ q ∈ qs, ¬ q.Decides id) : (qs.foldl History.extend h).stage id = .pending owner := by
  induction qs generalizing h with
  | nil => exact hpending
  | cons q rest ih =>
      obtain ⟨hq, hrest⟩ := List.forall_mem_cons.mp hqs
      exact ih (hs.extend q) (hs.pending_extend hpending hq) hrest

/-- Whoever was discarded was pending or decided before, if the number was handed out. -/
theorem final_discard (h : History L) {id : ServiceId} (hstage : h.stage id ≠ .unissued)
    (waits : Bool) : ((h.extend ⟨.discard id, waits⟩).stage id).IsFinal := by
  cases hid : h.stage id with
  | unissued => exact absurd hid hstage
  | pending owner => simp [extend, hid, move_stage, Stage.IsFinal]
  | admitted owner => simp [extend, hid, Stage.IsFinal]
  | discarded => simp [extend, hid, Stage.IsFinal]

/-- Only a request for a slot whose caller waits makes one pending. -/
theorem pending_extend_cases (h : History L) (q : Request L) {id : ServiceId} {owner : Handle}
    (hpending : (h.extend q).stage id = .pending owner) :
    h.stage id = .pending owner ∨
      ∃ name, q = ⟨.reserve name, true⟩ ∧ owner = ⟨⟨h.issued + 1⟩, name⟩ := by
  obtain ⟨command, waits⟩ := q
  cases command with
  | reserve name =>
      simp only [extend, move_stage] at hpending
      split at hpending
      · cases waits with
        | true => exact Or.inr ⟨name, rfl, by simpa using hpending.symm⟩
        | false => cases hpending
      · exact Or.inl hpending
  | subscribe service listener =>
      simp only [extend] at hpending
      split at hpending <;> exact Or.inl hpending
  | confirm target name =>
      simp only [extend] at hpending
      split at hpending
      · rw [move_stage] at hpending
        split at hpending
        · cases hpending
        · exact Or.inl hpending
      · exact Or.inl hpending
  | discard target =>
      simp only [extend] at hpending
      split at hpending
      · rw [move_stage] at hpending
        split at hpending
        · cases hpending
        · exact Or.inl hpending
      · exact Or.inl hpending
  | snapshot kind => exact Or.inl hpending
  | services => exact Or.inl hpending

/-- Only the confirmation of a pending slot admits. -/
theorem admitted_extend_cases (h : History L) (q : Request L) {id : ServiceId} {owner : Handle}
    (hadmitted : (h.extend q).stage id = .admitted owner) :
    h.stage id = .admitted owner ∨
      (∃ name, q.command = .confirm id name) ∧ h.stage id = .pending owner := by
  obtain ⟨command, waits⟩ := q
  cases command with
  | reserve name =>
      simp only [extend, move_stage] at hadmitted
      split at hadmitted
      · cases waits <;> cases hadmitted
      · exact Or.inl hadmitted
  | subscribe service listener =>
      simp only [extend] at hadmitted
      split at hadmitted <;> exact Or.inl hadmitted
  | confirm target name =>
      simp only [extend] at hadmitted
      split at hadmitted
      · rename_i o hpending
        rw [move_stage] at hadmitted
        split at hadmitted
        · rename_i heq
          obtain rfl : o = owner := by simpa using hadmitted
          exact Or.inr ⟨⟨name, by rw [heq]⟩, by rw [heq, hpending]⟩
        · exact Or.inl hadmitted
      · exact Or.inl hadmitted
  | discard target =>
      simp only [extend] at hadmitted
      split at hadmitted
      · rw [move_stage] at hadmitted
        split at hadmitted
        · cases hadmitted
        · exact Or.inl hadmitted
      · exact Or.inl hadmitted
  | snapshot kind => exact Or.inl hadmitted
  | services => exact Or.inl hadmitted

theorem confirmed_of_admitted (qs : List (Request L)) {id : ServiceId} {owner : Handle}
    (hadmitted : (of qs).stage id = .admitted owner) :
    ∃ q ∈ qs, ∃ name, q.command = .confirm id name := by
  induction qs using List.reverseRecOn with
  | nil => cases hadmitted
  | append_singleton qs q ih =>
      rw [of_concat] at hadmitted
      rcases admitted_extend_cases _ q hadmitted with hold | ⟨hconfirm, -⟩
      · obtain ⟨q', hmem, hq'⟩ := ih hold
        exact ⟨q', List.mem_append_left _ hmem, hq'⟩
      · exact ⟨q, by simp, hconfirm⟩

/-- A slot that was pending is decided in favour of its owner, or of nobody. -/
theorem Sound.admitted_foldl (hs : h.Sound) {id : ServiceId} {owner other : Handle}
    (hpending : h.stage id = .pending owner) {qs : List (Request L)}
    (hadmitted : (qs.foldl History.extend h).stage id = .admitted other) : other = owner := by
  induction qs generalizing h with
  | nil =>
      have hnow : h.stage id = .admitted other := hadmitted
      rw [hpending] at hnow
      cases hnow
  | cons q rest ih =>
      have hs' := hs.extend q
      rw [List.foldl_cons] at hadmitted
      by_cases hfinal : ((h.extend q).stage id).IsFinal
      · rw [hs'.stage_foldl hfinal] at hadmitted
        rcases h.admitted_extend_cases q hadmitted with hold | ⟨-, hold⟩
        · rw [hpending] at hold
          cases hold
        · rw [hpending] at hold
          exact (Stage.pending.inj hold).symm
      · apply ih hs' _ hadmitted
        cases hstage : (h.extend q).stage id with
        | unissued => exact absurd hstage (hs.issued_extend (by simp [hpending]) q)
        | admitted o => exact absurd (hstage ▸ trivial) hfinal
        | discarded => exact absurd (hstage ▸ trivial) hfinal
        | pending o =>
            rcases h.pending_extend_cases q hstage with hold | ⟨name, -, ho⟩
            · rw [← hold, hpending]
            · -- the number that is due was not handed out before
              have hid := hs'.pending_id id o hstage
              rw [ho] at hid
              rw [← hid, hs.stage_next] at hpending
              cases hpending

/-- What an admitted service subscribed while it was pending is committed. -/
def Whole (h : History L) : Prop :=
  ∀ id owner, h.stage id = .admitted owner → (h.made id).Sublist h.log

theorem made_extend {id : ServiceId} (hfinal : (h.stage id).IsFinal) (q : Request L) :
    (h.extend q).made id = h.made id := by
  obtain ⟨command, waits⟩ := q
  cases command with
  | subscribe service listener =>
      simp only [History.extend]
      split
      · rename_i owner hpending
        have hne : id ≠ service.id := by
          rintro rfl
          rw [hpending] at hfinal
          exact hfinal
        exact Function.update_of_ne hne _ _
      · rfl
      · rfl
  | confirm target name =>
      simp only [History.extend]
      split <;> rfl
  | discard target =>
      simp only [History.extend]
      split <;> rfl
  | reserve name => rfl
  | snapshot kind => rfl
  | services => rfl

/-- After the decision nothing more is kept for a service. -/
theorem Sound.made_foldl (hs : h.Sound) {id : ServiceId} (hfinal : (h.stage id).IsFinal)
    (qs : List (Request L)) : (qs.foldl History.extend h).made id = h.made id := by
  induction qs generalizing h with
  | nil => rfl
  | cons q rest ih =>
      have hstage := hs.stage_extend hfinal q
      exact (ih (hs.extend q) (hstage ▸ hfinal)).trans (made_extend hfinal q)

theorem Whole.extend (hw : h.Whole) (q : Request L) : (h.extend q).Whole := by
  intro id owner hadmitted
  rcases h.admitted_extend_cases q hadmitted with hold | ⟨⟨name, hconfirm⟩, hpending⟩
  · rw [made_extend (hold ▸ trivial), log_extend]
    exact (hw id owner hold).trans (List.sublist_append_left _ _)
  · -- the confirmation commits what was kept for the slot
    obtain ⟨command, waits⟩ := q
    obtain rfl : command = .confirm id name := hconfirm
    simp only [History.extend, hpending, move_made, move_log]
    exact List.sublist_append_right _ _

theorem whole_of (qs : List (Request L)) : (of qs).Whole := by
  induction qs using List.reverseRecOn with
  | nil =>
      intro id owner hadmitted
      cases hadmitted
  | append_singleton qs q ih =>
      rw [of_concat]
      exact ih.extend q

end History

/-- The books show the service, or something that was subscribed for it. -/
def Registry.Shows {L : Type} (r : Registry L) (id : ServiceId) : Prop :=
  (∃ owner ∈ r.services, owner.id = id) ∨ ∃ kind, ∃ s ∈ r.snapshot kind, s.service.id = id

/-- The books show the service once, and these subscriptions where they belong. -/
def Registry.ShowsAll {L : Type} (r : Registry L) (owner : Handle)
    (subscriptions : List (Subscription L)) : Prop :=
  r.services.count owner = 1 ∧
    ∀ kind, (subscriptions.filter (·.kind = kind)).Sublist (r.snapshot kind)

namespace Agrees

variable {L : Type} {r : Registry L} {h : History L}

theorem shows_iff (ha : Agrees r h) (hs : h.Sound) (id : ServiceId) :
    r.Shows id ↔ ∃ owner, h.stage id = .admitted owner := by
  have hmem {owner : Handle} (hadmitted : owner ∈ h.admitted) (hid : owner.id = id) :
      ∃ o, h.stage id = .admitted o := ⟨owner, hid ▸ (hs.mem_admitted_iff owner).mp hadmitted⟩
  rw [Registry.Shows, ha.services_eq]
  constructor
  · rintro (⟨owner, howner, hid⟩ | ⟨kind, s, hs', hid⟩)
    · exact hmem howner hid
    · rw [ha.snapshot_eq, List.mem_filter] at hs'
      exact hmem (hs.log_owned s hs'.1).1 hid
  · rintro ⟨owner, hstage⟩
    have hid := hs.admitted_id id owner hstage
    exact Or.inl ⟨owner, (hs.mem_admitted_iff owner).mpr (hid ▸ hstage), hid⟩

theorem showsAll (ha : Agrees r h) (hs : h.Sound) (hw : h.Whole) {id : ServiceId} {owner : Handle}
    (hstage : h.stage id = .admitted owner) : r.ShowsAll owner (h.made id) := by
  have hid := hs.admitted_id id owner hstage
  have hmem : owner ∈ h.admitted := (hs.mem_admitted_iff owner).mpr (hid ▸ hstage)
  refine ⟨?_, ?_⟩
  · rw [ha.services_eq]
    exact List.count_eq_one_of_mem (.of_map _ hs.admitted_nodup) hmem
  · intro kind
    rw [ha.snapshot_eq]
    exact (hw id owner hstage).filter _

end Agrees

/-- Whoever sees anything of a service sees all of it from then on: the service once,
and everything that was subscribed for it before it was confirmed. -/
theorem Registry.shows_all {L : Type} {qs : List (Request L)} {id : ServiceId}
    (hshows : (Registry.run {} qs).Shows id) (later : List (Request L)) :
    ∃ owner, (History.of qs).stage id = .admitted owner ∧
      (Registry.run {} (qs ++ later)).ShowsAll owner ((History.of qs).made id) := by
  have hs := History.sound_of qs
  obtain ⟨owner, hstage⟩ := ((Agrees.of_run qs).shows_iff hs id).mp hshows
  have hfinal : ((History.of qs).stage id).IsFinal := hstage ▸ trivial
  have hmade := hs.made_foldl hfinal later
  have hlater := hs.stage_foldl hfinal later
  rw [← History.of_append] at hmade hlater
  refine ⟨owner, hstage, ?_⟩
  rw [← hmade]
  exact (Agrees.of_run (qs ++ later)).showsAll (History.sound_of _) (History.whole_of _)
    (hlater.trans hstage)

end EventHub
