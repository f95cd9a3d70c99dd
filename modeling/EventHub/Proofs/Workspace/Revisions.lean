import EventHub.Proofs.Workspace.Coherent

/-!
Revisions over the life of a workspace. Only an update of a file touches what it
holds, and gives it the next revision; so a revision names the same bytes for as
long as the workspace exists, and what was derived from an old one is recognised.
-/

namespace EventHub

/-- What may be seen of a file after it was seen with `c`: what it held then, or
something newer, which has another revision. -/
structure Content.Precedes (c later : Content) : Prop where
  revision_le : c.revision.val ≤ later.revision.val
  eq_of_revision : later.revision = c.revision → later = c

namespace Content.Precedes

theorem refl (c : Content) : c.Precedes c := ⟨Nat.le_refl _, fun _ => rfl⟩

theorem next (c : Content) (data : Bytes) : c.Precedes ⟨data, c.revision.next⟩ := by
  refine ⟨Nat.le_succ _, ?_⟩
  intro h
  have hval : c.revision.val + 1 = c.revision.val := congrArg Revision.val h
  omega

theorem trans {c₁ c₂ c₃ : Content} (h : c₁.Precedes c₂) (h' : c₂.Precedes c₃) :
    c₁.Precedes c₃ := by
  refine ⟨Nat.le_trans h.revision_le h'.revision_le, ?_⟩
  intro hback
  have hle := h'.revision_le
  rw [hback] at hle
  have hsame : c₂.revision.val = c₁.revision.val := Nat.le_antisymm hle h.revision_le
  have hfirst : c₂ = c₁ := h.eq_of_revision (by
    cases hc₁ : c₁.revision
    cases hc₂ : c₂.revision
    simpa [hc₁, hc₂] using hsame)
  rw [← hfirst]
  exact h'.eq_of_revision (hback.trans (congrArg Content.revision hfirst.symm))

end Content.Precedes

namespace Workspace

namespace Coherent

variable {w : Workspace}

/-- Only an update of a file touches its content. -/
theorem lookup_commit (hw : Coherent w) {q : Request} {w' : Workspace} (h : Commit w q w')
    {id : EntryId} {c : Content} (hc : w.contents.lookup id = some c) :
    w'.contents.lookup id = some c ∨
      ∃ data, q = .update id data ∧ w'.contents.lookup id = some ⟨data, c.revision.next⟩ := by
  cases h with
  | directory name parent => exact Or.inl hc
  | archive name parent => exact Or.inl hc
  | file name parent data =>
      have hne : id ≠ ⟨w.lastId + 1⟩ := by
        rintro rfl
        rw [hw.content_next] at hc
        cases hc
      rw [hw.lookup_withFile, if_neg hne]
      exact Or.inl hc
  | content updated data hfile =>
      rw [lookup_withContent]
      by_cases hid : id = updated
      · subst hid
        rw [if_pos rfl, revision_of_lookup hc]
        exact Or.inr ⟨data, rfl, rfl⟩
      · rw [if_neg hid]
        exact Or.inl hc
  | view stored viewType data stamp hfile => exact Or.inl hc

theorem lookup_after (hw : Coherent w) (q : Request) {id : EntryId} {c : Content}
    (hc : w.contents.lookup id = some c) :
    (w.after q).contents.lookup id = some c ∨
      ∃ data, q = .update id data ∧
        (w.after q).contents.lookup id = some ⟨data, c.revision.next⟩ := by
  rcases w.after_cases q with h | ⟨-, h⟩ | ⟨-, h⟩
  · rw [h]
    exact Or.inl hc
  · rw [h]
    exact Or.inl hc
  · exact hw.lookup_commit h hc

theorem precedes_run (hw : Coherent w) (requests : List Request) {id : EntryId} {c : Content}
    (hc : w.contents.lookup id = some c) :
    ∃ later, (w.run requests).contents.lookup id = some later ∧ c.Precedes later := by
  induction requests using List.reverseRecOn with
  | nil => exact ⟨c, hc, .refl c⟩
  | append_singleton requests q ih =>
      obtain ⟨later, hlater, hprecedes⟩ := ih
      rw [run_concat]
      rcases (hw.run requests).lookup_after q hlater with hsame | ⟨data, -, hnext⟩
      · exact ⟨later, hsame, hprecedes⟩
      · exact ⟨_, hnext, hprecedes.trans (.next later data)⟩

end Coherent

/-- A revision that is not the current one is refused, and the answer names the
current one; once the workspace is closed, every revision is refused. -/
theorem store_outdated (w : Workspace) {id : EntryId} {revision : Revision} {c : Content}
    (hc : w.snapshot id = .ok c) (houtdated : revision ≠ c.revision) (viewType : String)
    (data : Bytes) (stamp : Nat) :
    w.store id revision viewType data stamp =
      .error (if w.isClosed then .closed else .staleRevision id revision c.revision) := by
  rw [store]
  cases hclosed : w.isClosed with
  | true => rfl
  | false => simp [hc, houtdated.symm]

/-- Views are never stale. Whatever a workspace was asked, its tree, contents and
views fit together. A file starts at the first revision; an update that is
accepted raises the revision of its file by one and drops the views of this file,
and nothing else touches a file's content. So what is seen of a file later has
the same revision with the same bytes or a greater one; and a view of an outdated
revision is not stored. -/
theorem views_current (requests : List Request) :
    (run {} requests).Coherent ∧
    (∀ name parent data w' e, (run {} requests).addFile name parent data = .ok (w', e) →
      w'.snapshot e.id = .ok ⟨data, ⟨1⟩⟩) ∧
    (∀ id data w' e, (run {} requests).update id data = .ok (w', e) →
      (∃ c, (run {} requests).snapshot id = .ok c ∧
        w'.snapshot id = .ok ⟨data, ⟨c.revision.val + 1⟩⟩) ∧
      (∀ other, other ≠ id → w'.snapshot other = (run {} requests).snapshot other) ∧
      w'.views = (run {} requests).views.filter (·.1.1 ≠ id)) ∧
    (∀ q id c, (run {} requests).snapshot id = .ok c → (∀ data, q ≠ .update id data) →
      ((run {} requests).after q).snapshot id = .ok c) ∧
    (∀ later id c, (run {} requests).snapshot id = .ok c →
      ∃ c', (run {} (requests ++ later)).snapshot id = .ok c' ∧
        c.revision.val ≤ c'.revision.val ∧ (c'.revision = c.revision → c'.data = c.data)) ∧
    (∀ id revision c viewType data stamp, (run {} requests).snapshot id = .ok c →
      revision ≠ c.revision →
      (run {} requests).store id revision viewType data stamp =
        .error (if (run {} requests).isClosed then .closed
          else .staleRevision id revision c.revision) ∧
      (run {} requests).after (.store id revision viewType data stamp) = run {} requests) := by
  have hw : (run {} requests).Coherent := coherent_empty.run requests
  refine ⟨hw, ?first, ?update, ?others, ?later, ?outdated⟩
  case first =>
    intro name parent data w' e h
    obtain ⟨-, rfl, rfl⟩ := addFile_ok h
    rw [(hw.file name parent data).snapshot_eq_ok_iff, hw.lookup_withFile, if_pos rfl]
    rfl
  case update =>
    intro id data w' e h
    obtain ⟨-, hfile, rfl⟩ := update_ok h
    have hfile := isFile_of_file hfile
    have hw' := hw.content data hfile
    obtain ⟨c, hc⟩ := Option.isSome_iff_exists.mp ((hw.content_iff id).mpr hfile)
    refine ⟨⟨c, (hw.snapshot_eq_ok_iff id c).mpr hc, ?_⟩, ?_, rfl⟩
    · rw [hw'.snapshot_eq_ok_iff, lookup_withContent, if_pos rfl, revision_of_lookup hc]
      rfl
    · intro other hne
      simp only [snapshot, file, entry, find_withContent, lookup_withContent, if_neg hne]
  case others =>
    intro q id c h hother
    rw [hw.snapshot_eq_ok_iff] at h
    rw [(hw.after q).snapshot_eq_ok_iff]
    rcases hw.lookup_after q h with hsame | ⟨data, hq, -⟩
    · exact hsame
    · exact absurd hq (hother data)
  case later =>
    intro later id c h
    rw [hw.snapshot_eq_ok_iff] at h
    obtain ⟨c', hc', hprecedes⟩ := hw.precedes_run later h
    rw [run_append]
    refine ⟨c', ((hw.run later).snapshot_eq_ok_iff id c').mpr hc', hprecedes.revision_le, ?_⟩
    intro hrevision
    rw [hprecedes.eq_of_revision hrevision]
  case outdated =>
    intro id revision c viewType data stamp h houtdated
    have hrefused := store_outdated (run {} requests) h houtdated viewType data stamp
    refine ⟨hrefused, ?_⟩
    rw [after, hrefused]
    rfl

/-- A file is viewed, updated, and then offered a view of its first content. -/
theorem views_current_outdated_view :
    (run {} [.file "a.bin" none [1], .store ⟨1⟩ ⟨1⟩ "hex" [48] 0, .update ⟨1⟩ [2]]).store ⟨1⟩ ⟨1⟩
      "hex" [48] 1 = .error (.staleRevision ⟨1⟩ ⟨1⟩ ⟨2⟩) :=
  ((views_current _).2.2.2.2.2 ⟨1⟩ ⟨1⟩ ⟨[2], ⟨2⟩⟩ "hex" [48] 1 (by rfl) (by decide)).1

/-- Once the workspace is closed, an outdated view is still refused, but the
answer does not say that it is outdated. -/
theorem closed_hides_outdated :
    ∃ requests id revision c viewType data stamp,
      (run {} requests).snapshot id = .ok c ∧ revision ≠ c.revision ∧
      (run {} requests).store id revision viewType data stamp ≠
        .error (.staleRevision id revision c.revision) := by
  refine ⟨[.file "a.bin" none [1], .update ⟨1⟩ [2], .close], ⟨1⟩, ⟨1⟩, ⟨[2], ⟨2⟩⟩, "hex", [], 0, ?_⟩
  refine ⟨by rfl, by decide, ?_⟩
  have hclosed : (run {} [.file "a.bin" none [1], .update ⟨1⟩ [2], .close]).store ⟨1⟩ ⟨1⟩ "hex" [] 0
      = .error .closed := by rfl
  rw [hclosed]
  simp

end Workspace

end EventHub
