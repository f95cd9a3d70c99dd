import EventHub.Proofs.Stores.Reach
import EventHub.Proofs.Workspace.Lasting

/-!
The tree of a workspace only grows. Its entries are numbered in the order in which they were
committed, each lies below an older directory, and what was added once stays as it is. A
request that is refused takes no number.
-/

namespace EventHub

open EventHub.Script EventHub.Simulation

namespace Workspace

/-- The entries form a tree, numbered from the first entry on without gaps. -/
structure IsTree (w : Workspace) : Prop where
  ids : w.files.map (·.1.val) = List.range' 1 w.lastId
  own_id : ∀ id e, (id, e) ∈ w.files → e.id = id
  name : ∀ id e, (id, e) ∈ w.files → e.name ≠ "" ∧ '/' ∉ e.name.toList
  parent : ∀ id e p, (id, e) ∈ w.files → e.parent = some p →
    p.val < id.val ∧ ∃ d, w.entry? p = some d ∧ d.directory = true

/-- The entry that a request describes, under this id. -/
def Request.entryAs (id : EntryId) : Request → Option Entry
  | .directory name parent => some { id, name, parent, directory := true }
  | .archive name parent => some { id, name, parent, directory := true, archive := true }
  | .file name parent _ => some { id, name, parent }
  | _ => none

/-- The entry that is returned to whoever made a request, if the workspace accepts one. -/
def added? (w : Workspace) : Request → Option Entry
  | .directory name parent => (w.addDirectory name parent).toOption.map (·.2)
  | .archive name parent => (w.addArchive name parent).toOption.map (·.2)
  | .file name parent data => (w.addFile name parent data).toOption.map (·.2)
  | _ => none

/-- The entries that are returned for a sequence of requests, in the order of the commits. -/
def addedBy (w : Workspace) : List Request → List Entry
  | [] => []
  | q :: rest => (w.added? q).toList ++ addedBy (w.after q) rest

/-! ### What one request does to the tree -/

theorem isValidName_iff (name : String) :
    isValidName name = true ↔ name ≠ "" ∧ '/' ∉ name.toList := by
  simp [isValidName]

theorem isDirectory_of_checkDirectory {w : Workspace} {p : EntryId}
    (h : w.checkDirectory (some p) = .ok ()) : ∃ d, w.entry? p = some d ∧ d.directory = true := by
  simp only [checkDirectory, entry] at h
  cases hfound : w.entry? p with
  | none => simp [hfound] at h
  | some d =>
      refine ⟨d, rfl, ?_⟩
      by_contra hplain
      simp [hfound, hplain] at h

/-- An entry may be added under a name without separators, below a directory. -/
structure Admits (w : Workspace) (e : Entry) : Prop where
  name : e.name ≠ "" ∧ '/' ∉ e.name.toList
  parent : ∀ p, e.parent = some p → ∃ d, w.entry? p = some d ∧ d.directory = true

theorem admits_of_insert {w w' : Workspace} {name : String} {parent : Option EntryId}
    {directory archive : Bool} {e : Entry}
    (h : w.insert name parent directory archive = .ok (w', e)) : w.Admits e := by
  obtain ⟨-, rfl, -⟩ := insert_ok h
  rw [insert] at h
  split at h
  · cases h
  · split at h
    · cases h
    · rename_i hname
      split at h
      · cases h
      · rename_i hdirectory
        refine ⟨(isValidName_iff name).mp (by simpa using hname), ?_⟩
        rintro p rfl
        exact isDirectory_of_checkDirectory hdirectory

/-- What is left of a request that was accepted: the next number is taken by an entry as the
request describes it. -/
structure Grows (w : Workspace) (q : Request) (e : Entry) : Prop where
  described : q.entryAs ⟨w.lastId + 1⟩ = some e
  admitted : w.Admits e
  lastId : (w.after q).lastId = w.lastId + 1
  files : (w.after q).files = w.files ++ [(⟨w.lastId + 1⟩, e)]

theorem grows_of_insert {w : Workspace} {name : String} {parent : Option EntryId}
    {directory archive : Bool} {q : Request}
    {e : Entry} (hq : w.after q = w.settled (w.insert name parent directory archive))
    (hdescribed : q.entryAs ⟨w.lastId + 1⟩ =
      some { id := ⟨w.lastId + 1⟩, name, parent, directory, archive })
    (h : (w.insert name parent directory archive).toOption.map (·.2) = some e) :
    w.Grows q e := by
  cases hinsert : w.insert name parent directory archive with
  | error refusal =>
      rw [hinsert] at h
      cases h
  | ok result =>
      obtain ⟨w', e'⟩ := result
      obtain ⟨-, hentry, hw'⟩ := insert_ok hinsert
      obtain rfl : e' = e := by simpa [hinsert, Except.toOption] using h
      rw [hinsert, settled, hw'] at hq
      exact ⟨hentry ▸ hdescribed, admits_of_insert hinsert, by rw [hq]; rfl, by rw [hq]; rfl⟩

theorem grows_of_added? {w : Workspace} {q : Request} {e : Entry} (h : w.added? q = some e) :
    w.Grows q e := by
  cases q with
  | directory name parent => exact grows_of_insert rfl rfl h
  | archive name parent => exact grows_of_insert rfl rfl h
  | file name parent data =>
      simp only [added?, addFile] at h
      cases hinsert : w.insert name parent false false with
      | error refusal =>
          rw [hinsert] at h
          cases h
      | ok result =>
          obtain ⟨w', e'⟩ := result
          obtain ⟨-, hentry, rfl⟩ := insert_ok hinsert
          obtain rfl : e' = e := by simpa [hinsert, Except.toOption] using h
          have hafter : w.after (.file name parent data) =
              { w.withEntry e' with
                contents := w.contents ++ [(e'.id, ⟨data, Revision.first⟩)] } := by
            simp only [after, addFile, hinsert, settled]
            rfl
          exact ⟨by rw [hentry]; rfl, admits_of_insert hinsert, by rw [hafter]; rfl,
            by rw [hafter]; rfl⟩
  | update id data => cases h
  | store id revision viewType data stamp => cases h
  | close => cases h

/-- A request that adds nothing leaves the tree as it was and takes no number. -/
theorem tree_of_added?_eq_none {w : Workspace} {q : Request} (h : w.added? q = none) :
    (w.after q).lastId = w.lastId ∧ (w.after q).files = w.files := by
  have hrefused {α : Type} {attempt : Except WorkspaceError (Workspace × α)}
      (hattempt : attempt.toOption.map (·.2) = none) : w.settled attempt = w := by
    cases attempt with
    | error refusal => rfl
    | ok result => cases hattempt
  cases q with
  | directory name parent => rw [after, hrefused h]; exact ⟨rfl, rfl⟩
  | archive name parent => rw [after, hrefused h]; exact ⟨rfl, rfl⟩
  | file name parent data => rw [after, hrefused h]; exact ⟨rfl, rfl⟩
  | update id data =>
      rcases w.update_cases id data with ⟨refusal, hrefusal, -⟩ | ⟨e, haccepted⟩
      · rw [after, hrefusal]
        exact ⟨rfl, rfl⟩
      · rw [after, haccepted, settled]
        have hfiles : (w.setContent id ⟨data, (w.revision id).next⟩).files = w.files := by
          rw [setContent]
          split <;> rfl
        exact ⟨w.setContent_lastId id _, hfiles⟩
  | store id revision viewType data stamp =>
      cases hstore : w.store id revision viewType data stamp with
      | error refusal =>
          rw [after, hstore]
          exact ⟨rfl, rfl⟩
      | ok result =>
          obtain ⟨-, -, -, -, hw'⟩ := store_ok hstore
          rw [after, hstore, settled, hw']
          exact ⟨rfl, rfl⟩
  | close => exact ⟨rfl, rfl⟩

/-! ### Whole runs -/

theorem isTree_empty : IsTree {} := ⟨rfl, by simp, by simp, by simp⟩

namespace IsTree

variable {w : Workspace}

theorem ids_nodup (h : w.IsTree) : (w.files.map (·.1)).Nodup := by
  have hvals : ((w.files.map (·.1)).map EntryId.val).Nodup := by
    rw [List.map_map]
    exact h.ids ▸ List.nodup_range'
  exact hvals.of_map

/-- What is found under an id is what stands there. -/
theorem entry?_eq_some_iff (h : w.IsTree) (id : EntryId) (e : Entry) :
    w.entry? id = some e ↔ (id, e) ∈ w.files := by
  constructor
  · intro hfound
    obtain ⟨before, after, hsplit, -⟩ := List.lookup_eq_some_iff.mp hfound
    rw [hsplit]
    simp
  · intro hmem
    exact Lookup.lookup_of_mem h.ids_nodup hmem

/-- The ids are those from one to the last one that was handed out. -/
theorem isSome_entry?_iff (h : w.IsTree) (id : EntryId) :
    (w.entry? id).isSome ↔ 1 ≤ id.val ∧ id.val ≤ w.lastId := by
  have hmem : id.val ∈ w.files.map (·.1.val) ↔ 1 ≤ id.val ∧ id.val ≤ w.lastId := by
    rw [h.ids, List.mem_range'_1]
    omega
  rw [← hmem, Option.isSome_iff_exists]
  constructor
  · rintro ⟨e, hfound⟩
    exact List.mem_map.mpr ⟨(id, e), (h.entry?_eq_some_iff id e).mp hfound, rfl⟩
  · intro hval
    obtain ⟨⟨⟨val⟩, e⟩, hfiles, rfl⟩ := List.mem_map.mp hval
    exact ⟨e, (h.entry?_eq_some_iff _ e).mpr hfiles⟩

theorem mem_files (h : w.IsTree) {e : Entry} :
    w.entry? e.id = some e ↔ e ∈ w.files.map (·.2) := by
  rw [h.entry?_eq_some_iff]
  constructor
  · exact fun hmem => List.mem_map.mpr ⟨_, hmem, rfl⟩
  · intro hmem
    obtain ⟨⟨id, e⟩, hfiles, rfl⟩ := List.mem_map.mp hmem
    exact h.own_id id e hfiles ▸ hfiles

/-- The directory that an entry lies in is an older entry. -/
theorem parent_of_entry? (h : w.IsTree) {e : Entry} (he : w.entry? e.id = some e) {p : EntryId}
    (hp : e.parent = some p) : ∃ d, w.entry? d.id = some d ∧ d.id = p ∧ d.directory = true ∧
      1 ≤ p.val ∧ p.val < e.id.val := by
  obtain ⟨hlt, d, hd, hdirectory⟩ := h.parent _ e p ((h.entry?_eq_some_iff _ e).mp he) hp
  obtain rfl : d.id = p := h.own_id p d ((h.entry?_eq_some_iff p d).mp hd)
  have hrange := (h.isSome_entry?_iff d.id).mp (by rw [hd]; rfl)
  exact ⟨d, hd, rfl, hdirectory, hrange.1, hlt⟩

theorem entries_nodup (h : w.IsTree) : (w.files.map (·.2)).Nodup := by
  have hids : (w.files.map (·.2)).map Entry.id = w.files.map (·.1) := by
    rw [List.map_map]
    exact List.map_congr_left fun file hfile => h.own_id file.1 file.2 hfile
  exact .of_map Entry.id (hids ▸ h.ids_nodup)

/-- What is found stays so when the tree grows. -/
theorem entry?_of_prefix {w' : Workspace} (h : w.files <+: w'.files) {id : EntryId} {e : Entry}
    (hfound : w.entry? id = some e) : w'.entry? id = some e := by
  obtain ⟨more, hmore⟩ := h
  unfold entry?
  rw [← hmore, List.lookup_append, show w.files.lookup id = some e from hfound]
  rfl

theorem after (h : w.IsTree) (q : Request) : (w.after q).IsTree := by
  cases hadded : w.added? q with
  | none =>
      obtain ⟨hlast, hfiles⟩ := tree_of_added?_eq_none hadded
      have hentry (id : EntryId) : entry? (w.after q) id = w.entry? id := by
        unfold entry?
        rw [hfiles]
      refine ⟨by rw [hfiles, hlast]; exact h.ids, ?_, ?_, ?_⟩ <;> rw [hfiles]
      · exact h.own_id
      · exact h.name
      · intro id e p hmem hp
        rw [hentry]
        exact h.parent id e p hmem hp
  | some added =>
      obtain ⟨hdescribed, hadmitted, hlast, hfiles⟩ := grows_of_added? hadded
      have hid : added.id = ⟨w.lastId + 1⟩ := by
        cases q <;> cases hdescribed <;> rfl
      have hkept {id : EntryId} {e : Entry} (hfound : w.entry? id = some e) :
          entry? (w.after q) id = some e :=
        entry?_of_prefix ⟨_, hfiles.symm⟩ hfound
      have hcases {id : EntryId} {e : Entry} (hmem : (id, e) ∈ (w.after q).files) :
          (id, e) ∈ w.files ∨ (id = ⟨w.lastId + 1⟩ ∧ e = added) := by
        rw [hfiles] at hmem
        simpa using hmem
      refine ⟨?ids, ?own_id, ?name, ?parent⟩
      case ids =>
        rw [hfiles, hlast, List.map_append, h.ids, List.range'_concat]
        simp [Nat.add_comm]
      case own_id =>
        intro id e hmem
        rcases hcases hmem with hold | ⟨rfl, rfl⟩
        · exact h.own_id id e hold
        · exact hid
      case name =>
        intro id e hmem
        rcases hcases hmem with hold | ⟨rfl, rfl⟩
        · exact h.name id e hold
        · exact hadmitted.name
      case parent =>
        intro id e p hmem hp
        rcases hcases hmem with hold | ⟨rfl, rfl⟩
        · obtain ⟨hlt, d, hd, hdirectory⟩ := h.parent id e p hold hp
          exact ⟨hlt, d, hkept hd, hdirectory⟩
        · obtain ⟨d, hd, hdirectory⟩ := hadmitted.parent p hp
          have hle := ((h.isSome_entry?_iff p).mp (by rw [hd]; rfl)).2
          exact ⟨Nat.lt_succ_of_le hle, d, hkept hd, hdirectory⟩

theorem run (h : w.IsTree) (requests : List Request) : (w.run requests).IsTree := by
  induction requests using List.reverseRecOn with
  | nil => exact h
  | append_singleton requests q ih =>
      rw [run_concat]
      exact ih.after q

end IsTree

/-- The tree of a workspace is what was added to it, in the order of the commits. -/
theorem files_run (w : Workspace) (requests : List Request) :
    (w.run requests).files = w.files ++ (w.addedBy requests).map fun e => (e.id, e) := by
  induction requests generalizing w with
  | nil => simp [run, addedBy]
  | cons q rest ih =>
      have hrest := ih (w.after q)
      rw [run, List.foldl_cons, ← run, hrest, addedBy]
      cases hadded : w.added? q with
      | none => simp [(tree_of_added?_eq_none hadded).2]
      | some e =>
          obtain ⟨hdescribed, -, -, hfiles⟩ := grows_of_added? hadded
          have hid : e.id = ⟨w.lastId + 1⟩ := by
            cases q <;> cases hdescribed <;> rfl
          simp [hfiles, hid]

theorem files_begin (w : Workspace) (requests : List Request) :
    w.files <+: (w.run requests).files := by
  rw [files_run]
  exact List.prefix_append _ _

/-- Where a workspace stands after these requests, and what becomes of it from there. -/
structure AppendOnly (requests : List Request) : Prop where
  tree : (run {} requests).IsTree
  /-- The ids are handed out in the order of the commits. -/
  committed : (run {} requests).files = (addedBy {} requests).map fun e => (e.id, e)
  /-- A request that is accepted takes the next id for the entry that it describes. -/
  accepted : ∀ q e, (run {} requests).added? q = some e → (run {} requests).Grows q e
  /-- Any other one takes no id and leaves the tree as it is. -/
  refused : ∀ q, (run {} requests).added? q = none →
    (run {} (requests ++ [q])).lastId = (run {} requests).lastId ∧
      (run {} (requests ++ [q])).files = (run {} requests).files
  /-- What is there stays there as it is. -/
  lasts : ∀ later id e, entry? (run {} requests) id = some e →
    entry? (run {} (requests ++ later)) id = some e

theorem appendOnly_run (requests : List Request) : AppendOnly requests where
  tree := isTree_empty.run requests
  committed := files_run {} requests
  accepted _ _ h := grows_of_added? h
  refused q h := by
    rw [run_concat]
    exact tree_of_added?_eq_none h
  lasts later id e h := by
    rw [run_append]
    exact IsTree.entry?_of_prefix (files_begin _ later) h

end Workspace

open Workspace in
/-- The file tree is well formed and only grows. Whatever a workspace was asked, its entries are
numbered from one without gaps, in the order of the commits; each has a name and lies below an
older directory or at the root; none ever goes away or changes, and what is refused takes no
number. So it is with every workspace of every world, whoever takes turns there. -/
theorem tree_append_only :
    (∀ requests : List Workspace.Request, AppendOnly requests) ∧
    ∀ (s : Scenario) (w : World), Scenario.Leads s.start w →
      ∀ (index : Nat) (hosted : Hosted), w.workspaces[index]? = some hosted →
        ∃ requests, hosted.workspace = Workspace.run {} requests ∧ AppendOnly requests ∧
          ∀ w', Scenario.Leads w w' → ∃ later hosted', w'.workspaces[index]? = some hosted' ∧
            hosted'.workspace = Workspace.run {} (requests ++ later) ∧
            AppendOnly (requests ++ later) := by
  refine ⟨appendOnly_run, ?_⟩
  intro s w hleads index hosted hfound
  obtain ⟨requests, hrequests⟩ := hleads.workspace hfound
  refine ⟨requests, hrequests, appendOnly_run requests, ?_⟩
  intro w' hleads'
  obtain ⟨later, hlater⟩ := hleads.workspace_onward hleads' hfound
  refine ⟨later, _, hlater, ?_, appendOnly_run _⟩
  rw [Workspace.run_append, ← hrequests]

namespace Workspace

/-- A directory with a file in it; in between, two requests that are refused. -/
def smallTree : List Request :=
  [.directory "src" none, .file "a/b" none [1], .archive "lib.jar" (some ⟨7⟩),
    .file "a.bin" (some ⟨1⟩) [1], .update ⟨2⟩ [2]]

end Workspace

open Workspace in
/-- The file has the second number, and keeps it when an archive is added to the directory, while
nothing can be put below the file itself. -/
theorem tree_append_only_small :
    addedBy {} smallTree = [{ id := ⟨1⟩, name := "src", directory := true },
      { id := ⟨2⟩, name := "a.bin", parent := some ⟨1⟩ }] ∧
    (Workspace.run {} smallTree).IsTree ∧
    (Workspace.run {} smallTree).Grows (.archive "lib.jar" (some ⟨1⟩))
      { id := ⟨3⟩, name := "lib.jar", parent := some ⟨1⟩, directory := true, archive := true } ∧
    (Workspace.run {} (smallTree ++ [.directory "sub" (some ⟨2⟩)])).lastId = 2 ∧
    Workspace.entry? (Workspace.run {} (smallTree ++ [.archive "lib.jar" (some ⟨1⟩)])) ⟨2⟩ =
      some { id := ⟨2⟩, name := "a.bin", parent := some ⟨1⟩ } ∧
    ∃ requests hosted, (Scenario.start {}).workspaces[0]? = some hosted ∧
      hosted.workspace = Workspace.run {} requests ∧ AppendOnly requests := by
  have happend := tree_append_only.1 smallTree
  obtain ⟨requests, hrequests, happend', -⟩ :=
    tree_append_only.2 {} _ .refl 0 { broker := 0 } rfl
  exact ⟨by decide +kernel, happend.tree, happend.accepted _ _ (by decide +kernel),
    (happend.refused _ (by decide +kernel)).1.trans (by decide +kernel),
    happend.lasts _ ⟨2⟩ _ (by decide +kernel), requests, _, rfl, hrequests, happend'⟩

end EventHub
