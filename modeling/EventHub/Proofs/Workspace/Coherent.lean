import EventHub.Proofs.Lookup
import EventHub.Proofs.Workspace.Request
import Mathlib.Data.List.Induction

/-!
The tree, the contents and the kept views of a workspace fit together: exactly
the plain files have content, and every view is of what its file holds now. Each
commit keeps it so, which makes it true after every sequence of requests.
-/

namespace EventHub.Workspace

/-- Entries, contents and views agree. -/
structure Coherent (w : Workspace) : Prop where
  id_le : ∀ id e, w.entry? id = some e → id.val ≤ w.lastId
  archive_directory : ∀ id e, w.entry? id = some e → e.archive = true → e.directory = true
  content_iff : ∀ id, (w.contents.lookup id).isSome ↔ w.IsFile id
  revision_pos : ∀ id c, w.contents.lookup id = some c → 1 ≤ c.revision.val
  /-- A view stands under its own file and type, and its revision is the current
  one. -/
  view_current : ∀ file viewType v, ((file, viewType), v) ∈ w.views →
    v.view.file = file ∧ v.view.viewType = viewType ∧
      ∃ c, w.contents.lookup file = some c ∧ v.view.revision = c.revision

theorem coherent_empty : Coherent {} where
  id_le _ _ h := by cases h
  archive_directory _ _ h := by cases h
  content_iff id := by
    constructor
    · intro h
      cases h
    · rintro ⟨e, he, -⟩
      cases he
  revision_pos _ _ h := by cases h
  view_current _ _ _ h := by cases h

/-! ### What a commit changes -/

theorem find_withEntry (w : Workspace) (e : Entry) (id : EntryId) :
    entry? (w.withEntry e) id =
      (w.entry? id).or (if id = ⟨w.lastId + 1⟩ then some e else none) := by
  have hnew : [(⟨w.lastId + 1⟩, e)].lookup id = if id = ⟨w.lastId + 1⟩ then some e else none := by
    by_cases h : id = ⟨w.lastId + 1⟩
    · simp [h]
    · have hb : (id == ⟨w.lastId + 1⟩) = false := by simpa using h
      simp [List.lookup_cons, hb, h]
  simp only [withEntry, entry?, List.lookup_append, hnew]

/-- New content stands in the place of the old one, whatever the file held. -/
theorem lookup_setContent (w : Workspace) (id other : EntryId) (c : Content) :
    (w.setContent id c).contents.lookup other =
      if other = id then some c else w.contents.lookup other := by
  rw [setContent]
  split
  · rename_i hnone
    rw [List.lookup_append]
    by_cases h : other = id
    · simp [h, hnone]
    · have hb : (other == id) = false := by simpa using h
      simp [List.lookup_cons, hb, h]
  · rename_i old hold
    have hmap : (w.contents.map fun entry => if entry.1 = id then (id, c) else entry) =
        w.contents.map fun entry => if entry.1 = id then (entry.1, c) else entry := by
      apply List.map_congr_left
      intro entry _
      by_cases h : entry.1 = id <;> simp [h]
    rw [hmap, Lookup.lookup_map_at w.contents id other fun _ => c]
    by_cases h : other = id
    · simp [h, hold]
    · simp [h]

theorem find_setContent (w : Workspace) (id other : EntryId) (c : Content) :
    entry? (w.setContent id c) other = w.entry? other := by
  rw [setContent]
  split <;> rfl

theorem setContent_lastId (w : Workspace) (id : EntryId) (c : Content) :
    (w.setContent id c).lastId = w.lastId := by
  rw [setContent]
  split <;> rfl

theorem find_withContent (w : Workspace) (id other : EntryId) (data : Bytes) :
    entry? (w.withContent id data) other = w.entry? other :=
  w.find_setContent id other _

theorem lookup_withContent (w : Workspace) (id other : EntryId) (data : Bytes) :
    (w.withContent id data).contents.lookup other =
      if other = id then some ⟨data, (w.revision id).next⟩ else w.contents.lookup other :=
  w.lookup_setContent id other _

theorem isFile_withContent (w : Workspace) (id other : EntryId) (data : Bytes) :
    (w.withContent id data).IsFile other ↔ w.IsFile other := by
  simp only [IsFile, find_withContent]

theorem revision_of_lookup {w : Workspace} {id : EntryId} {c : Content}
    (h : w.contents.lookup id = some c) : w.revision id = c.revision := by
  simp [revision, h]

namespace Coherent

variable {w : Workspace}

theorem find_next (hw : Coherent w) : w.entry? ⟨w.lastId + 1⟩ = none := by
  cases h : w.entry? ⟨w.lastId + 1⟩ with
  | none => rfl
  | some e =>
      have hle : w.lastId + 1 ≤ w.lastId := hw.id_le _ e h
      omega

theorem content_next (hw : Coherent w) : w.contents.lookup ⟨w.lastId + 1⟩ = none := by
  cases h : w.contents.lookup ⟨w.lastId + 1⟩ with
  | none => rfl
  | some c =>
      obtain ⟨e, he, -⟩ := (hw.content_iff ⟨w.lastId + 1⟩).mp (by rw [h]; rfl)
      rw [hw.find_next] at he
      cases he

/-- A file has content, and its snapshot is just that. -/
theorem snapshot_eq_ok_iff (hw : Coherent w) (id : EntryId) (c : Content) :
    w.snapshot id = .ok c ↔ w.contents.lookup id = some c := by
  constructor
  · intro h
    have hfile := isFile_of_snapshot h
    obtain ⟨held, hheld⟩ := Option.isSome_iff_exists.mp ((hw.content_iff id).mpr hfile)
    rw [snapshot_of_isFile hfile, hheld] at h
    cases h
    exact hheld
  · intro h
    have hfile : w.IsFile id := (hw.content_iff id).mp (by rw [h]; rfl)
    rw [snapshot_of_isFile hfile, h]
    rfl

/-- One more entry is found under the next id; nothing else changes. -/
theorem find_withEntry (hw : Coherent w) (e : Entry) (id : EntryId) :
    entry? (w.withEntry e) id = if id = ⟨w.lastId + 1⟩ then some e else w.entry? id := by
  rw [Workspace.find_withEntry]
  by_cases h : id = ⟨w.lastId + 1⟩
  · rw [h, hw.find_next]
    simp
  · simp [h]

theorem id_le_withEntry (hw : Coherent w) (e : Entry) (id : EntryId) (found : Entry)
    (h : entry? (w.withEntry e) id = some found) : id.val ≤ w.lastId + 1 := by
  rw [hw.find_withEntry] at h
  split at h
  · rename_i hid
    exact hid ▸ Nat.le_refl _
  · have hle := hw.id_le id found h
    omega

theorem archive_withEntry (hw : Coherent w) {e : Entry} (he : e.archive = true → e.directory = true)
    (id : EntryId) (found : Entry) (h : entry? (w.withEntry e) id = some found) :
    found.archive = true → found.directory = true := by
  rw [hw.find_withEntry] at h
  split at h
  · cases h
    exact he
  · exact hw.archive_directory id found h

theorem folder (hw : Coherent w) {e : Entry} (hdirectory : e.directory = true) :
    Coherent (w.withEntry e) := by
  have hfile (id : EntryId) : (w.withEntry e).IsFile id ↔ w.IsFile id := by
    by_cases h : id = ⟨w.lastId + 1⟩
    · subst h
      simp [IsFile, hw.find_withEntry, hw.find_next, hdirectory]
    · simp [IsFile, hw.find_withEntry, h]
  refine ⟨hw.id_le_withEntry e, hw.archive_withEntry fun _ => hdirectory, ?_, hw.revision_pos,
    hw.view_current⟩
  intro id
  rw [hfile]
  exact hw.content_iff id

theorem lookup_withFile (hw : Coherent w) (name : String) (parent : Option EntryId) (data : Bytes)
    (id : EntryId) :
    (w.withFile name parent data).contents.lookup id =
      if id = ⟨w.lastId + 1⟩ then some ⟨data, Revision.first⟩ else w.contents.lookup id := by
  simp only [withFile, List.lookup_append]
  by_cases h : id = ⟨w.lastId + 1⟩
  · rw [h, hw.content_next]
    simp
  · have hb : (id == ⟨w.lastId + 1⟩) = false := by simpa using h
    simp [List.lookup_cons, hb, h]

theorem file (hw : Coherent w) (name : String) (parent : Option EntryId) (data : Bytes) :
    Coherent (w.withFile name parent data) := by
  have hentry (id : EntryId) : entry? (w.withFile name parent data) id =
      if id = ⟨w.lastId + 1⟩ then some { id := ⟨w.lastId + 1⟩, name, parent } else w.entry? id :=
    hw.find_withEntry _ id
  refine ⟨hw.id_le_withEntry _, hw.archive_withEntry (fun h => by cases h), ?content_iff,
    ?revision_pos, ?view_current⟩
  case content_iff =>
    intro id
    rw [hw.lookup_withFile, IsFile, hentry]
    by_cases h : id = ⟨w.lastId + 1⟩
    · simp [h]
    · simpa only [h, if_false, IsFile] using hw.content_iff id
  case revision_pos =>
    intro id c hc
    rw [hw.lookup_withFile] at hc
    split at hc
    · cases hc
      exact Nat.le_refl 1
    · exact hw.revision_pos id c hc
  case view_current =>
    intro file viewType v hv
    obtain ⟨hkey, htype, c, hc, hcurrent⟩ := hw.view_current file viewType v hv
    refine ⟨hkey, htype, c, ?_, hcurrent⟩
    -- The file of a kept view has content, so it is not the new one.
    have hne : file ≠ ⟨w.lastId + 1⟩ := by
      rintro rfl
      rw [hw.content_next] at hc
      cases hc
    rw [hw.lookup_withFile, if_neg hne]
    exact hc

theorem content (hw : Coherent w) {id : EntryId} (data : Bytes) (hfile : w.IsFile id) :
    Coherent (w.withContent id data) := by
  refine ⟨?id_le, ?archive_directory, ?content_iff, ?revision_pos, ?view_current⟩
  case archive_directory =>
    intro other e he
    rw [find_withContent] at he
    exact hw.archive_directory other e he
  case id_le =>
    intro other e he
    rw [find_withContent] at he
    have hlast : (w.withContent id data).lastId = w.lastId := w.setContent_lastId id _
    rw [hlast]
    exact hw.id_le other e he
  case content_iff =>
    intro other
    rw [lookup_withContent, isFile_withContent]
    by_cases h : other = id
    · simp [h, hfile]
    · simpa only [h, if_false] using hw.content_iff other
  case revision_pos =>
    intro other c hc
    rw [lookup_withContent] at hc
    split at hc
    · cases hc
      exact Nat.le_add_left 1 _
    · exact hw.revision_pos other c hc
  case view_current =>
    intro file viewType v hv
    obtain ⟨hmem, hne⟩ := List.mem_filter.mp hv
    have hne : file ≠ id := by simpa using hne
    obtain ⟨hkey, htype, c, hc, hcurrent⟩ := hw.view_current file viewType v hmem
    refine ⟨hkey, htype, c, ?_, hcurrent⟩
    rw [lookup_withContent, if_neg hne]
    exact hc

theorem view (hw : Coherent w) {r : View} (data : Bytes) (hfile : w.IsFile r.file)
    (hcurrent : r.revision = w.revision r.file) : Coherent (w.withView r data) := by
  refine ⟨hw.id_le, hw.archive_directory, hw.content_iff, hw.revision_pos, ?_⟩
  intro file viewType v hv
  rcases List.mem_append.mp hv with hold | hnew
  · exact hw.view_current file viewType v (List.mem_filter.mp hold).1
  · cases List.mem_singleton.mp hnew
    obtain ⟨c, hc⟩ := Option.isSome_iff_exists.mp ((hw.content_iff r.file).mpr hfile)
    exact ⟨rfl, rfl, c, hc, hcurrent.trans (revision_of_lookup hc)⟩

theorem close (hw : Coherent w) : Coherent w.close :=
  ⟨hw.id_le, hw.archive_directory, hw.content_iff, hw.revision_pos, hw.view_current⟩

theorem commit (hw : Coherent w) {q : Request} {w' : Workspace} (h : Commit w q w') :
    Coherent w' := by
  cases h with
  | directory name parent => exact hw.folder rfl
  | archive name parent => exact hw.folder rfl
  | file name parent data => exact hw.file name parent data
  | content id data hfile => exact hw.content data hfile
  | view id viewType data stamp hfile => exact hw.view data hfile rfl

theorem after (hw : Coherent w) (q : Request) : Coherent (w.after q) := by
  rcases w.after_cases q with h | ⟨-, h⟩ | ⟨-, h⟩
  · rw [h]
    exact hw
  · rw [h]
    exact hw.close
  · exact hw.commit h

theorem run (hw : Coherent w) (requests : List Request) : Coherent (w.run requests) := by
  induction requests using List.reverseRecOn with
  | nil => exact hw
  | append_singleton requests q ih =>
      rw [run_concat]
      exact ih.after q

end Coherent

end EventHub.Workspace
