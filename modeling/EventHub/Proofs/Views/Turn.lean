import EventHub.Proofs.Workspace.Request
import EventHub.View.Generation

/-!
What a turn of a call for a view can come to. A call looks one thing up at a time, and
changes the workspace in one kind of turn only: when it keeps its data, which the workspace
takes if the file still has the revision that the data was made from.
-/

namespace EventHub

namespace Workspace

variable {w : Workspace} {id : EntryId}

theorem snapshot_error {e : WorkspaceError} (h : w.snapshot id = .error e) :
    e = .unknownFile id ∨ e = .isADirectory id := by
  simp only [snapshot, file, entry] at h
  cases hfound : w.entry? id with
  | none =>
      simp only [hfound] at h
      cases h
      exact Or.inl rfl
  | some entry =>
      cases hdirectory : entry.directory
      · simp [hfound, hdirectory] at h
      · simp only [hfound, hdirectory, if_true] at h
        cases h
        exact Or.inr rfl

/-- Data is outdated if the file is there and has another revision by now. -/
theorem store_stale {revision old current : Revision} {viewType : String} {data : Bytes}
    {stamp : Nat} {file : EntryId}
    (h : w.store id revision viewType data stamp = .error (.staleRevision file old current)) :
    file = id ∧ old = revision ∧
      ∃ c, w.snapshot id = .ok c ∧ c.revision = current ∧ current ≠ revision := by
  rw [store] at h
  split at h
  · cases h
  · split at h
    · rename_i e hsnapshot
      cases h
      rcases snapshot_error hsnapshot with herror | herror <;> cases herror
    · rename_i c hsnapshot
      split at h
      · rename_i hchanged
        cases h
        exact ⟨rfl, rfl, c, hsnapshot, rfl, hchanged⟩
      · cases h

end Workspace

namespace Generation

variable {P : Type} {w w' : Workspace} {v : Views P} {c c' : Call P}

/-- The call has not come to a view. -/
def IsViewless (outcome : Outcome Result) : Prop := ∀ r, outcome ≠ .returned (.ok (some r))

/-- The file changed too often. -/
def IsStale (outcome : Outcome Result) : Prop :=
  ∃ file old current, outcome = .returned (.error (.workspace (.staleRevision file old current)))

def Stage.IsEnded (stage : Stage P) : Prop := ∃ outcome, stage = .ended outcome

/-- All that a turn of a call can come to, with the workspace and the generators as they
are by then. -/
inductive Turned (w : Workspace) (v : Views P) : Call P → Workspace → Call P → Prop where
  | found (g : Generation) (r : View) (h : w.view? g.file g.viewType = .ok (some r)) :
      Turned w v ⟨g, .looking .kept⟩ w ⟨g, .ended (.returned (.ok (some r)))⟩
  | missed (g : Generation) (h : w.view? g.file g.viewType = .ok none) :
      Turned w v ⟨g, .looking .kept⟩ w ⟨g, .looking .generator⟩
  | chosen (g : Generation) (generator : Views.Generator P)
      (h : v.generator? g.viewType = some generator) :
      Turned w v ⟨g, .looking .generator⟩ w ⟨g, .looking (.entry generator)⟩
  | accepted (g : Generation) (generator : Views.Generator P) (entry : Entry)
      (h : w.entry g.file = .ok entry) :
      Turned w v ⟨g, .looking (.entry generator)⟩ w ⟨g, .looking (.content generator entry)⟩
  | begun (g : Generation) (generator : Views.Generator P) (entry : Entry) (content : Content)
      (h : w.snapshot g.file = .ok content) :
      Turned w v ⟨g, .looking (.content generator entry)⟩ w
        ⟨g, .rendering generator entry content none⟩
  | collected (g : Generation) (generator : Views.Generator P) (entry : Entry)
      (content : Content) (data : Bytes) :
      Turned w v ⟨g, .rendering generator entry content (some data)⟩ w
        ⟨g, .keeping content.revision data⟩
  | kept (g : Generation) (revision : Revision) (data : Bytes) (now : Nat) (w' : Workspace)
      (r : View) (h : w.store g.file revision g.viewType data now = .ok (w', r)) :
      Turned w v ⟨g, .keeping revision data⟩ w' ⟨g, .ended (.returned (.ok (some r)))⟩
  | overtaken (g : Generation) (revision : Revision) (data : Bytes) (content : Content)
      (h : w.snapshot g.file = .ok content) (hchanged : content.revision ≠ revision)
      (hattempt : g.attempt < maxAttempts) :
      Turned w v ⟨g, .keeping revision data⟩ w ⟨{ g with attempt := g.attempt + 1 }, .looking .kept⟩
  | givenUp (g : Generation) (revision : Revision) (data : Bytes) (content : Content)
      (h : w.snapshot g.file = .ok content) (hchanged : content.revision ≠ revision)
      (hattempt : maxAttempts ≤ g.attempt) :
      Turned w v ⟨g, .keeping revision data⟩ w
        ⟨g, .ended (.returned
          (.error (.workspace (.staleRevision g.file revision content.revision))))⟩
  | failed (g : Generation) (stage : Stage P) (outcome : Outcome Result)
      (hstage : ¬ stage.IsEnded) (hviewless : IsViewless outcome) (hstale : ¬ IsStale outcome) :
      Turned w v ⟨g, stage⟩ w ⟨g, .ended outcome⟩
  | finished (g : Generation) (outcome : Outcome Result) :
      Turned w v ⟨g, .ended outcome⟩ w ⟨g, .ended outcome⟩

theorem not_isEnded_looking (look : Look P) : ¬ (Stage.looking look).IsEnded := by
  rintro ⟨outcome, h⟩
  cases h

theorem turned_looking (w : Workspace) (v : Views P) (g : Generation) (stage : Look P) :
    Turned w v ⟨g, .looking stage⟩ w ⟨g, (g.look w v stage).stage⟩ := by
  have hfailed (outcome : Outcome Result) (hviewless : IsViewless outcome)
      (hstale : ¬ IsStale outcome) : Turned w v ⟨g, .looking stage⟩ w ⟨g, .ended outcome⟩ :=
    .failed g _ outcome (not_isEnded_looking stage) hviewless hstale
  have hunknown {e : WorkspaceError} (h : w.entry g.file = .error e) :
      ¬ IsStale (.returned (.error (.workspace e))) := by
    rw [Workspace.entry] at h
    split at h <;> cases h
    simp [IsStale]
  cases stage with
  | kept =>
      cases h : w.view? g.file g.viewType with
      | error e =>
          have hentry : w.entry g.file = .error e := by
            rw [Workspace.view?] at h
            split at h <;> cases h
            assumption
          rw [look, h]
          exact hfailed _ (by simp [IsViewless]) (hunknown hentry)
      | ok found =>
          rw [look, h]
          cases found with
          | none => exact .missed g h
          | some r => exact .found g r h
  | generator =>
      rw [look]
      cases h : v.generator? g.viewType with
      | none => exact hfailed _ (by simp [IsViewless]) (by simp [IsStale])
      | some generator => exact .chosen g generator h
  | entry generator =>
      rw [look]
      cases h : w.entry g.file with
      | error e => exact hfailed _ (by simp [IsViewless]) (hunknown h)
      | ok entry =>
          dsimp only
          split
          · exact hfailed _ (by simp [IsViewless]) (by simp [IsStale])
          · exact hfailed _ (by simp [IsViewless]) (by simp [IsStale])
          · exact .accepted g generator entry h
  | content generator entry =>
      rw [look]
      cases h : w.snapshot g.file with
      | error e =>
          have hstale : ¬ IsStale (.returned (.error (.workspace e))) := by
            rcases Workspace.snapshot_error h with rfl | rfl <;> simp [IsStale]
          exact hfailed _ (by simp [IsViewless]) hstale
      | ok content => exact .begun g generator entry content h

theorem turned_keeping (w : Workspace) (v : Views P) (g : Generation) (revision : Revision)
    (data : Bytes) (job : Except JobError Unit) (now : Nat) :
    Turned w v ⟨g, .keeping revision data⟩ (Call.turn ⟨g, .keeping revision data⟩ w v job now).1
      (Call.turn ⟨g, .keeping revision data⟩ w v job now).2 := by
  have hstage : ¬ (Stage.keeping (P := P) revision data).IsEnded := by
    rintro ⟨outcome, h⟩
    cases h
  cases hstore : w.store g.file revision g.viewType data now with
  | ok stored =>
      simpa only [Call.turn, keep, hstore] using Turned.kept g revision data now _ _ hstore
  | error e =>
      cases e with
      | staleRevision file old current =>
          obtain ⟨rfl, rfl, content, hsnapshot, rfl, hchanged⟩ := Workspace.store_stale hstore
          by_cases hattempt : g.attempt < maxAttempts
          · simpa only [Call.turn, keep, hstore, hattempt, if_true] using
              Turned.overtaken g old data content hsnapshot hchanged hattempt
          · simpa only [Call.turn, keep, hstore, hattempt, if_false] using
              Turned.givenUp g old data content hsnapshot hchanged (Nat.le_of_not_lt hattempt)
      | _ =>
          simpa only [Call.turn, keep, hstore] using
            Turned.failed g _ _ hstage (by simp [IsViewless]) (by simp [IsStale])

theorem Call.turned (c : Call P) (w : Workspace) (v : Views P) (job : Except JobError Unit)
    (now : Nat) : Turned w v c (c.turn w v job now).1 (c.turn w v job now).2 := by
  obtain ⟨g, stage⟩ := c
  cases stage with
  | looking stage => exact turned_looking w v g stage
  | rendering generator entry content made =>
      have hstage : ¬ (Stage.rendering generator entry content made).IsEnded := by
        rintro ⟨outcome, h⟩
        cases h
      cases job with
      | error e => exact .failed g _ _ hstage (by simp [IsViewless]) (by simp [IsStale])
      | ok u =>
          cases made with
          | none => exact .failed g _ _ hstage (by simp [IsViewless]) (by simp [IsStale])
          | some data => exact .collected g generator entry content data
  | keeping revision data => exact turned_keeping w v g revision data job now
  | ended outcome => exact .finished g outcome

/-- The workspace is left as it was, or one request has been carried out. -/
theorem Turned.workspace (h : Turned w v c w' c') : w' = w ∨ ∃ q, w' = w.after q := by
  cases h with
  | kept g revision data now w' r hstore =>
      right
      refine ⟨.store g.file revision g.viewType data now, ?_⟩
      rw [Workspace.after, hstore]
      rfl
  | _ => exact Or.inl rfl

/-- A turn that changes the workspace ends the call, with the view that it has kept. -/
theorem Turned.changed (h : Turned w v c w' c') :
    w' = w ∨ ∃ r, c' = ⟨c.generation, .ended (.returned (.ok (some r)))⟩ := by
  cases h with
  | kept g revision data now w' r hstore => exact Or.inr ⟨r, rfl⟩
  | _ => exact Or.inl rfl

/-- A call whose data is of the file's current revision ends as it keeps it. -/
theorem Turned.ended_of_current {g : Generation} {revision : Revision} {data : Bytes}
    {content : Content} (h : Turned w v ⟨g, .keeping revision data⟩ w' c')
    (hcontent : w.snapshot g.file = .ok content) (hcurrent : content.revision = revision) :
    c'.stage.IsEnded := by
  cases h with
  | overtaken _ _ _ held hheld hchanged =>
      cases hcontent.symm.trans hheld
      exact absurd hcurrent hchanged
  | kept | givenUp | failed => exact ⟨_, rfl⟩

theorem Turned.request (h : Turned w v c w' c') :
    c'.generation.file = c.generation.file ∧ c'.generation.viewType = c.generation.viewType := by
  cases h <;> exact ⟨rfl, rfl⟩

theorem Turned.ended {outcome : Outcome Result} (h : Turned w v c w' c')
    (hended : c.stage = .ended outcome) : c' = c := by
  cases h with
  | finished g outcome => rfl
  | failed g stage outcome hstage => exact absurd ⟨_, hended⟩ hstage
  | _ => cases hended

theorem Call.handOver_generation (generate : P → Entry → Bytes → Except String Bytes) (c : Call P) :
    (c.handOver generate).generation = c.generation := by
  rw [handOver]
  split <;> rfl

theorem Call.handOver_ended (generate : P → Entry → Bytes → Except String Bytes) {c : Call P}
    (hended : c.stage.IsEnded) : c.handOver generate = c := by
  obtain ⟨outcome, houtcome⟩ := hended
  rw [handOver, houtcome]

end Generation

end EventHub
