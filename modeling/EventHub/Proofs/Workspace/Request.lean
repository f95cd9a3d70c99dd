import EventHub.Proofs.Workspace.Commit

/-!
What a sequence of requests makes of a workspace. Each is carried out while the
workspace is locked, so however its callers overlap, the workspace goes through
their requests one after another. `Commit` lists what a request can put in its
place: what every commit keeps is kept over a whole run.
-/

namespace EventHub.Workspace

/-- What a workspace is asked to do. -/
inductive Request where
  | directory (name : String) (parent : Option EntryId)
  | archive (name : String) (parent : Option EntryId)
  | file (name : String) (parent : Option EntryId) (data : Bytes)
  | update (id : EntryId) (data : Bytes)
  | store (id : EntryId) (revision : Revision) (viewType : String) (data : Bytes) (stamp : Nat)
  | close

/-- What stays of an attempt: a refused one leaves the workspace as it was. -/
def settled {α : Type} (w : Workspace) : Except WorkspaceError (Workspace × α) → Workspace
  | .ok result => result.1
  | .error _ => w

/-- The workspace after one request. -/
def after (w : Workspace) : Request → Workspace
  | .directory name parent => w.settled (w.addDirectory name parent)
  | .archive name parent => w.settled (w.addArchive name parent)
  | .file name parent data => w.settled (w.addFile name parent data)
  | .update id data => w.settled (w.update id data)
  | .store id revision viewType data stamp =>
    w.settled (w.store id revision viewType data stamp)
  | .close => w.close

/-- The workspace after a sequence of requests. -/
def run (w : Workspace) (requests : List Request) : Workspace := requests.foldl after w

theorem run_append (w : Workspace) (first second : List Request) :
    w.run (first ++ second) = (w.run first).run second :=
  List.foldl_append

theorem run_concat (w : Workspace) (requests : List Request) (q : Request) :
    w.run (requests ++ [q]) = (w.run requests).after q := by
  rw [run_append]
  rfl

/-- A plain file, which is what has content. -/
def IsFile (w : Workspace) (id : EntryId) : Prop :=
  ∃ e, w.entry? id = some e ∧ e.directory = false

/-- The workspace with one more entry. -/
def withEntry (w : Workspace) (e : Entry) : Workspace :=
  { w with lastId := w.lastId + 1, files := w.files ++ [(⟨w.lastId + 1⟩, e)] }

/-- The workspace with a view in the place of an older one of the same file and
type. -/
def withView (w : Workspace) (r : View) (data : Bytes) : Workspace :=
  { w with
    views := w.views.filter (·.1 ≠ (r.file, r.viewType)) ++ [((r.file, r.viewType), ⟨r, data⟩)] }

/-- What an open workspace commits for a request. -/
inductive Commit (w : Workspace) : Request → Workspace → Prop where
  | directory (name : String) (parent : Option EntryId) :
      Commit w (.directory name parent)
        (w.withEntry { id := ⟨w.lastId + 1⟩, name, parent, directory := true })
  | archive (name : String) (parent : Option EntryId) :
      Commit w (.archive name parent)
        (w.withEntry { id := ⟨w.lastId + 1⟩, name, parent, directory := true, archive := true })
  | file (name : String) (parent : Option EntryId) (data : Bytes) :
      Commit w (.file name parent data) (w.withFile name parent data)
  | content (id : EntryId) (data : Bytes) (hfile : w.IsFile id) :
      Commit w (.update id data) (w.withContent id data)
  | view (id : EntryId) (viewType : String) (data : Bytes) (stamp : Nat) (hfile : w.IsFile id) :
      Commit w (.store id (w.revision id) viewType data stamp)
        (w.withView { file := id, viewType, revision := w.revision id, stamp } data)

theorem file_eq_ok_iff (w : Workspace) (id : EntryId) (e : Entry) :
    w.file id = .ok e ↔ w.entry? id = some e ∧ e.directory = false := by
  rw [file, entry]
  cases w.entry? id with
  | none => simp
  | some e' =>
      cases hdirectory : e'.directory
      · constructor
        · intro h
          have heq : e' = e := by simpa [hdirectory] using h
          subst heq
          exact ⟨rfl, hdirectory⟩
        · rintro ⟨h, -⟩
          have heq : e' = e := by simpa using h
          simp [heq ▸ hdirectory, heq]
      · constructor
        · intro h
          simp [hdirectory] at h
        · rintro ⟨h, hplain⟩
          have heq : e' = e := by simpa using h
          rw [heq, hplain] at hdirectory
          cases hdirectory

theorem isFile_of_file {w : Workspace} {id : EntryId} {e : Entry} (h : w.file id = .ok e) :
    w.IsFile id :=
  ⟨e, (w.file_eq_ok_iff id e).mp h⟩

theorem snapshot_of_isFile {w : Workspace} {id : EntryId} (h : w.IsFile id) :
    w.snapshot id = .ok ((w.contents.lookup id).getD ⟨[], Revision.first⟩) := by
  obtain ⟨e, he⟩ := h
  rw [snapshot, (w.file_eq_ok_iff id e).mpr he]

theorem isFile_of_snapshot {w : Workspace} {id : EntryId} {c : Content}
    (h : w.snapshot id = .ok c) : w.IsFile id := by
  rw [snapshot] at h
  split at h
  · cases h
  · rename_i e hfile
    exact isFile_of_file hfile

/-- Where an attempt of adding an entry is accepted, it adds just that entry. -/
theorem insert_ok {w w' : Workspace} {name : String} {parent : Option EntryId}
    {directory archive : Bool} {e : Entry}
    (h : w.insert name parent directory archive = .ok (w', e)) :
    w.isClosed = false ∧ e = { id := ⟨w.lastId + 1⟩, name, parent, directory, archive } ∧
      w' = w.withEntry e := by
  have hopen : w.isClosed = false := by
    cases hclosed : w.isClosed
    · rfl
    · rw [insert, hclosed] at h
      cases h
  rcases w.insert_cases name parent directory archive with ⟨e', he', -⟩ | hok
  · cases he'.symm.trans h
  · cases hok.symm.trans h
    exact ⟨hopen, rfl, rfl⟩

theorem addFile_ok {w w' : Workspace} {name : String} {parent : Option EntryId} {data : Bytes}
    {e : Entry} (h : w.addFile name parent data = .ok (w', e)) :
    w.isClosed = false ∧ e = { id := ⟨w.lastId + 1⟩, name, parent } ∧
      w' = w.withFile name parent data := by
  rw [addFile] at h
  split at h
  · cases h
  · rename_i inserted e' hinsert
    obtain ⟨hopen, rfl, rfl⟩ := insert_ok hinsert
    cases h
    exact ⟨hopen, rfl, rfl⟩

theorem update_ok {w w' : Workspace} {id : EntryId} {data : Bytes} {e : Entry}
    (h : w.update id data = .ok (w', e)) :
    w.isClosed = false ∧ w.file id = .ok e ∧ w' = w.withContent id data := by
  have hopen : w.isClosed = false := by
    cases hclosed : w.isClosed
    · rfl
    · rw [update, hclosed] at h
      cases h
  have hfile : w.file id = .ok e := by
    rw [update, hopen] at h
    cases hfile : w.file id with
    | error e' => simp [hfile] at h
    | ok e' =>
        rw [hfile] at h
        cases h
        rfl
  refine ⟨hopen, hfile, ?_⟩
  rcases w.update_cases id data with ⟨e', he', -⟩ | ⟨e', he'⟩
  · cases he'.symm.trans h
  · cases he'.symm.trans h
    rfl

/-- A view is only kept if it was derived from what the file holds now. -/
theorem store_ok {w w' : Workspace} {id : EntryId} {revision : Revision} {viewType : String}
    {data : Bytes} {stamp : Nat} {r : View}
    (h : w.store id revision viewType data stamp = .ok (w', r)) :
    w.isClosed = false ∧ w.IsFile id ∧ revision = w.revision id ∧
      r = { file := id, viewType, revision, stamp } ∧ w' = w.withView r data := by
  rw [store] at h
  split at h
  · cases h
  · rename_i hopen
    split at h
    · cases h
    · rename_i content hsnapshot
      split at h
      · cases h
      · rename_i hcurrent
        have hfile := isFile_of_snapshot hsnapshot
        have hrevision : content.revision = w.revision id := by
          rw [snapshot_of_isFile hfile] at hsnapshot
          cases hsnapshot
          rw [Workspace.revision]
          cases w.contents.lookup id <;> rfl
        cases h
        exact ⟨by simpa using hopen, hfile, hrevision ▸ (Decidable.not_not.mp hcurrent).symm,
          rfl, rfl⟩

/-- All that a request can do. -/
theorem after_cases (w : Workspace) (q : Request) :
    w.after q = w ∨ (q = .close ∧ w.after q = w.close) ∨
      (w.isClosed = false ∧ Commit w q (w.after q)) := by
  cases q with
  | directory name parent =>
      simp only [after, addDirectory]
      cases h : w.insert name parent true false with
      | error e => exact Or.inl rfl
      | ok result =>
          obtain ⟨hopen, hentry, hcommit⟩ := insert_ok h
          refine Or.inr (Or.inr ⟨hopen, ?_⟩)
          rw [settled, hcommit, hentry]
          exact .directory name parent
  | archive name parent =>
      simp only [after, addArchive]
      cases h : w.insert name parent true true with
      | error e => exact Or.inl rfl
      | ok result =>
          obtain ⟨hopen, hentry, hcommit⟩ := insert_ok h
          refine Or.inr (Or.inr ⟨hopen, ?_⟩)
          rw [settled, hcommit, hentry]
          exact .archive name parent
  | file name parent data =>
      simp only [after]
      cases h : w.addFile name parent data with
      | error e => exact Or.inl rfl
      | ok result =>
          obtain ⟨hopen, -, hcommit⟩ := addFile_ok h
          refine Or.inr (Or.inr ⟨hopen, ?_⟩)
          rw [settled, hcommit]
          exact .file name parent data
  | update id data =>
      simp only [after]
      cases h : w.update id data with
      | error e => exact Or.inl rfl
      | ok result =>
          obtain ⟨hopen, hfile, hcommit⟩ := update_ok h
          refine Or.inr (Or.inr ⟨hopen, ?_⟩)
          rw [settled, hcommit]
          exact .content id data (isFile_of_file hfile)
  | store id revision viewType data stamp =>
      simp only [after]
      cases h : w.store id revision viewType data stamp with
      | error e => exact Or.inl rfl
      | ok result =>
          obtain ⟨hopen, hfile, rfl, hview, hcommit⟩ := store_ok h
          refine Or.inr (Or.inr ⟨hopen, ?_⟩)
          rw [settled, hcommit, hview]
          exact .view id viewType data stamp hfile
  | close => exact Or.inr (Or.inl ⟨rfl, rfl⟩)

end EventHub.Workspace
