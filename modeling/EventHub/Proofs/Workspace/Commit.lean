import EventHub.Workspace.Basic

/-!
What the operations of the workspace commit, and how they refuse. A refusal is
never about a broker: the workspace does not know of any.
-/

namespace EventHub

/-- The workspace itself refuses. -/
def WorkspaceError.IsRefusal (e : WorkspaceError) : Prop := ∀ b, e ≠ .broker b

/-- Nobody takes a refusal for a closed broker. -/
theorem WorkspaceError.IsRefusal.label_ne {e : WorkspaceError} (h : e.IsRefusal) :
    e.label ≠ BrokerError.closed.label := by
  cases e with
  | broker b => exact absurd rfl (h b)
  | _ => simp [label, BrokerError.label]

namespace Workspace

/-- The workspace with one more plain file, and its first content. -/
def withFile (w : Workspace) (name : String) (parent : Option EntryId) (data : Bytes) :
    Workspace :=
  { w with
    lastId := w.lastId + 1
    files := w.files ++ [(⟨w.lastId + 1⟩, { id := ⟨w.lastId + 1⟩, name, parent })]
    contents := w.contents ++ [(⟨w.lastId + 1⟩, ⟨data, Revision.first⟩)] }

/-- The revision that a file's content has. -/
def revision (w : Workspace) (id : EntryId) : Revision :=
  ((w.contents.lookup id).map (·.revision)).getD Revision.first

/-- The workspace with a file's next revision, without the views of the last
one. -/
def withContent (w : Workspace) (id : EntryId) (data : Bytes) : Workspace :=
  { w.setContent id ⟨data, (w.revision id).next⟩ with
    views := w.views.filter (·.1.1 ≠ id) }

theorem insert_cases (w : Workspace) (name : String) (parent : Option EntryId)
    (directory archive : Bool) :
    (∃ e, w.insert name parent directory archive = .error e ∧ e.IsRefusal) ∨
      w.insert name parent directory archive =
        .ok ({ w with
            lastId := w.lastId + 1
            files := w.files ++ [(⟨w.lastId + 1⟩,
              { id := ⟨w.lastId + 1⟩, name, parent, directory, archive })] },
          { id := ⟨w.lastId + 1⟩, name, parent, directory, archive }) := by
  rw [insert]
  split
  · exact Or.inl ⟨_, rfl, by simp [WorkspaceError.IsRefusal]⟩
  · split
    · exact Or.inl ⟨_, rfl, by simp [WorkspaceError.IsRefusal]⟩
    · split
      · rename_i e hdirectory
        refine Or.inl ⟨e, rfl, ?_⟩
        cases parent with
        | none => cases hdirectory
        | some id =>
            simp only [checkDirectory, entry] at hdirectory
            split at hdirectory
            · rename_i e' hentry
              split at hentry <;> cases hentry
              cases hdirectory
              simp [WorkspaceError.IsRefusal]
            · split at hdirectory <;> cases hdirectory
              simp [WorkspaceError.IsRefusal]
      · exact Or.inr rfl

theorem insert_refusal {w : Workspace} {name : String} {parent : Option EntryId}
    {directory archive : Bool} {e : WorkspaceError}
    (h : w.insert name parent directory archive = .error e) : e.IsRefusal := by
  rcases w.insert_cases name parent directory archive with ⟨e', he', hrefusal⟩ | hok
  · cases he'.symm.trans h
    exact hrefusal
  · cases hok.symm.trans h

theorem addFile_cases (w : Workspace) (name : String) (parent : Option EntryId) (data : Bytes) :
    (∃ e, w.addFile name parent data = .error e ∧ e.IsRefusal) ∨
      ∃ e, w.addFile name parent data = .ok (w.withFile name parent data, e) := by
  rw [addFile]
  rcases w.insert_cases name parent false false with ⟨e, hinsert, he⟩ | hinsert
  · rw [hinsert]
    exact Or.inl ⟨e, rfl, he⟩
  · rw [hinsert]
    exact Or.inr ⟨_, rfl⟩

theorem file_refusal {w : Workspace} {id : EntryId} {e : WorkspaceError}
    (h : w.file id = .error e) : e.IsRefusal := by
  simp only [file, entry] at h
  split at h
  · rename_i e' hentry
    split at hentry <;> cases hentry
    cases h
    simp [WorkspaceError.IsRefusal]
  · split at h <;> cases h
    simp [WorkspaceError.IsRefusal]

theorem update_cases (w : Workspace) (id : EntryId) (data : Bytes) :
    (∃ e, w.update id data = .error e ∧ e.IsRefusal) ∨
      ∃ e, w.update id data = .ok (w.withContent id data, e) := by
  rw [update]
  split
  · exact Or.inl ⟨_, rfl, by simp [WorkspaceError.IsRefusal]⟩
  · split
    · rename_i e hfile
      exact Or.inl ⟨e, rfl, file_refusal hfile⟩
    · rename_i e _
      refine Or.inr ⟨e, ?_⟩
      have hviews (c : Content) : (w.setContent id c).views = w.views := by
        rw [setContent]
        split <;> rfl
      simp only [withContent, hviews]
      rfl

theorem store_refusal {w : Workspace} {id : EntryId} {revision : Revision} {viewType : String}
    {data : Bytes} {stamp : Nat} {e : WorkspaceError}
    (h : w.store id revision viewType data stamp = .error e) : e.IsRefusal := by
  rw [store] at h
  split at h
  · cases h
    simp [WorkspaceError.IsRefusal]
  · split at h
    · rename_i e' hsnapshot
      cases h
      rw [snapshot] at hsnapshot
      split at hsnapshot <;> cases hsnapshot
      rename_i hfile
      exact file_refusal hfile
    · split at h <;> cases h
      simp [WorkspaceError.IsRefusal]

end Workspace

end EventHub
