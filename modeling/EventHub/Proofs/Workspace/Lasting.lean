import EventHub.Proofs.Workspace.Revisions

/-!
What lasts in a workspace, and what ends it. An entry lasts for good; what a file holds, and
a view that was kept of it, last until an update of the file is accepted; and a view also ends
when another one of the same type is kept in its place.
-/

namespace EventHub.Workspace

/-- The request is an update of this file, and the workspace accepts it. -/
def Updates (w : Workspace) (q : Request) (id : EntryId) : Prop :=
  ∃ data w' e, q = .update id data ∧ w.update id data = .ok (w', e)

theorem entry_eq_ok_iff (w : Workspace) (id : EntryId) (e : Entry) :
    w.entry id = .ok e ↔ w.entry? id = some e := by
  rw [entry]
  cases w.entry? id <;> simp

theorem view?_eq_ok_iff (w : Workspace) (file : EntryId) (viewType : String) (found : Option View) :
    w.view? file viewType = .ok found ↔
      (w.entry? file).isSome ∧ (w.views.lookup (file, viewType)).map (·.view) = found := by
  rw [view?, entry]
  cases w.entry? file <;> simp

/-- A view that is found is kept with some data. -/
theorem kept_of_view? {w : Workspace} {file : EntryId} {viewType : String} {r : View}
    (h : w.view? file viewType = .ok (some r)) :
    ∃ data, w.views.lookup (file, viewType) = some ⟨r, data⟩ := by
  obtain ⟨-, hlookup⟩ := (view?_eq_ok_iff w file viewType (some r)).mp h
  obtain ⟨⟨_, data⟩, hkept, rfl⟩ := Option.map_eq_some_iff.mp hlookup
  exact ⟨data, hkept⟩

/-- A view that is kept is found with its data. -/
theorem viewData_of_lookup {w : Workspace} {r : View} {data : Bytes}
    (h : w.views.lookup (r.file, r.viewType) = some ⟨r, data⟩) : w.viewData r = .ok data := by
  rw [viewData, h]
  exact if_pos rfl

/-- What a view is stored of is what the file holds. -/
theorem snapshot_of_store {w w' : Workspace} {id : EntryId} {revision : Revision}
    {viewType : String} {data : Bytes} {stamp : Nat} {r : View}
    (h : w.store id revision viewType data stamp = .ok (w', r)) :
    ∃ c, w.snapshot id = .ok c ∧ c.revision = revision := by
  rw [store] at h
  split at h
  · cases h
  · split at h
    · cases h
    · rename_i c hsnapshot
      split at h
      · cases h
      · rename_i hcurrent
        exact ⟨c, hsnapshot, Decidable.not_not.mp hcurrent⟩

theorem lookup_withView (w : Workspace) (r : View) (data : Bytes) (key : EntryId × String) :
    (w.withView r data).views.lookup key =
      if key = (r.file, r.viewType) then some ⟨r, data⟩ else w.views.lookup key := by
  have hothers := Lookup.lookup_filter_key w.views (fun k => k ≠ (r.file, r.viewType)) key
  rw [withView, List.lookup_append, hothers]
  by_cases h : key = (r.file, r.viewType)
  · simp [h]
  · have hb : (key == (r.file, r.viewType)) = false := beq_false_of_ne h
    simp [List.lookup_cons, hb, h]

/-- A request that adds something. -/
def Request.isInsertion : Request → Bool
  | .directory .. | .archive .. | .file .. => true
  | _ => false

theorem views_insert (w : Workspace) (q : Request) (hq : q.isInsertion = true) :
    (w.after q).views = w.views := by
  rcases w.after_cases q with hsame | ⟨-, hclosed⟩ | ⟨-, hcommit⟩
  · rw [hsame]
  · rw [hclosed, close]
  · generalize w.after q = w' at hcommit
    cases hcommit with
    | directory name parent => rfl
    | archive name parent => rfl
    | file name parent data => rfl
    | content id data hfile => cases hq
    | view id viewType data stamp hfile => cases hq

/-- A kept view stays unless its file is updated or another view takes its place. -/
theorem lookup_view_after (w : Workspace) (q : Request) (file : EntryId) (viewType : String) :
    (w.after q).views.lookup (file, viewType) = w.views.lookup (file, viewType) ∨
      (w.Updates q file ∧ (w.after q).views.lookup (file, viewType) = none) ∨
      ∃ revision data stamp r, q = .store file revision viewType data stamp ∧
        w.store file revision viewType data stamp = .ok (w.after q, r) ∧
        (w.after q).views.lookup (file, viewType) = some ⟨r, data⟩ := by
  cases q with
  | update id data =>
      cases hupdate : w.update id data with
      | error e =>
          left
          simp only [after, hupdate, settled]
      | ok result =>
          obtain ⟨w', e⟩ := result
          obtain ⟨-, -, rfl⟩ := update_ok hupdate
          have hkept := Lookup.lookup_filter_key w.views (fun k => k.1 ≠ id) (file, viewType)
          simp only [after, hupdate, settled, withContent]
          rw [hkept]
          by_cases hid : file = id
          · subst hid
            exact Or.inr (Or.inl ⟨⟨data, _, e, rfl, hupdate⟩, if_neg (by simp)⟩)
          · exact Or.inl (if_pos (by simpa using hid))
  | store id revision stored data stamp =>
      cases hstore : w.store id revision stored data stamp with
      | error e =>
          left
          simp only [after, hstore, settled]
      | ok result =>
          obtain ⟨w', r⟩ := result
          obtain ⟨-, -, -, hr, rfl⟩ := store_ok hstore
          have hafter : w.after (.store id revision stored data stamp) = w.withView r data := by
            simp only [after, hstore, settled]
          rw [hafter, lookup_withView]
          by_cases hkey : (file, viewType) = (r.file, r.viewType)
          · rw [if_pos hkey]
            obtain ⟨rfl, rfl⟩ : file = id ∧ viewType = stored := by simpa [hr] using hkey
            exact Or.inr (Or.inr ⟨revision, data, stamp, r, rfl, hstore, rfl⟩)
          · rw [if_neg hkey]
            exact Or.inl rfl
  | close => exact Or.inl rfl
  | directory name parent => exact Or.inl (by rw [w.views_insert (.directory name parent) rfl])
  | archive name parent => exact Or.inl (by rw [w.views_insert (.archive name parent) rfl])
  | file name parent data => exact Or.inl (by rw [w.views_insert (.file name parent data) rfl])

namespace Coherent

variable {w : Workspace}

theorem entry_after (hw : Coherent w) (q : Request) {id : EntryId} {e : Entry}
    (h : w.entry? id = some e) : entry? (w.after q) id = some e := by
  have hnew {added : Entry} : entry? (w.withEntry added) id = some e := by
    have hne : id ≠ ⟨w.lastId + 1⟩ := by
      rintro rfl
      rw [hw.find_next] at h
      cases h
    rw [hw.find_withEntry, if_neg hne]
    exact h
  rcases w.after_cases q with hsame | ⟨-, hclosed⟩ | ⟨-, hcommit⟩
  · rw [hsame]
    exact h
  · rw [hclosed]
    exact h
  · generalize w.after q = w' at hcommit
    cases hcommit with
    | directory name parent => exact hnew
    | archive name parent => exact hnew
    | file name parent data => exact hnew
    | content updated data hfile => exact (find_withContent w updated id data).trans h
    | view stored viewType data stamp hfile => exact h

/-- What a file holds stays unless the file is updated. -/
theorem snapshot_after (hw : Coherent w) (q : Request) {id : EntryId} {c : Content}
    (hc : w.snapshot id = .ok c) : (w.after q).snapshot id = .ok c ∨ w.Updates q id := by
  rw [hw.snapshot_eq_ok_iff] at hc
  rw [(hw.after q).snapshot_eq_ok_iff]
  rcases hw.lookup_after q hc with hsame | ⟨data, rfl, hnext⟩
  · exact Or.inl hsame
  · cases hupdate : w.update id data with
    | error e =>
        left
        rw [Workspace.after, hupdate]
        exact hc
    | ok result => exact Or.inr ⟨data, result.1, result.2, rfl, hupdate⟩

/-- A kept view is of the file's current revision. -/
theorem snapshot_of_lookup (hw : Coherent w) {file : EntryId} {viewType : String} {v : KeptView}
    (h : w.views.lookup (file, viewType) = some v) :
    v.view.file = file ∧ v.view.viewType = viewType ∧
      ∃ c, w.snapshot file = .ok c ∧ c.revision = v.view.revision := by
  obtain ⟨first, rest, hsplit, -⟩ := List.lookup_eq_some_iff.mp h
  obtain ⟨hfile, htype, c, hc, hrevision⟩ :=
    hw.view_current file viewType v (by rw [hsplit]; simp)
  exact ⟨hfile, htype, c, (hw.snapshot_eq_ok_iff file c).mpr hc, hrevision.symm⟩

end Coherent

end EventHub.Workspace
