import EventHub.Event
import EventHub.Proofs.Workspace.Growth

/-!
What the events of a workspace tell of its files. A file that is added has an event, and so has
each new content of it, with the entry of the file and the bytes that were committed. So the
events of a file tell all that it ever held, and the last of them what it holds.
-/

namespace EventHub

/-- The file that an event is about, and the content that it carries. -/
def Notice.file? : Notice → Option (Entry × Bytes)
  | .added e data => some (e, data)
  | .updated e data => some (e, data)
  | _ => none

/-- An event that a workspace has created, and the workspace as it was then. -/
structure Issue where
  event : Event
  state : Workspace

def Issue.isAbout (i : Issue) (id : EntryId) : Bool := i.event.notice.file?.any (·.1.id = id)

namespace Workspace

/-- These events tell the life of a file up to now: one that it was added and then one for each
update. Each carries what the file held after the commit, whose revision is the number of the
event among them. -/
structure Tells (w : Workspace) (e : Entry) (issues : List Issue) : Prop where
  notices : ∃ (first : Bytes) (later : List Bytes),
    issues.map (·.event.notice) = .added e first :: later.map (.updated e)
  revisions : ∀ (k : Nat) (i : Issue), issues[k]? = some i → ∃ data,
    i.event.notice.file? = some (e, data) ∧ i.state.snapshot e.id = .ok ⟨data, ⟨k + 1⟩⟩
  current : ∃ (last : Issue) (data : Bytes), issues.getLast? = some last ∧
    last.event.notice.file? = some (e, data) ∧ w.snapshot e.id = .ok ⟨data, ⟨issues.length⟩⟩

/-- These are the events of a workspace: they tell the life of each of its files, and of nothing
else. -/
structure Chronicle (w : Workspace) (issues : List Issue) : Prop where
  coherent : w.Coherent
  tree : w.IsTree
  told : ∀ id e, w.entry? id = some e → e.directory = false →
    Tells w e (issues.filter (·.isAbout id))
  others : ∀ id, ¬ w.IsFile id → issues.filter (·.isAbout id) = []

/-- A workspace has gone on, and no file was added or got new content. -/
structure Keeps (w w' : Workspace) : Prop where
  requests : ∃ requests, w' = w.run requests
  contents : w'.contents = w.contents

/-- A request for neither a file nor new content of one. -/
def Request.IsPlain : Request → Prop
  | .file .. | .update .. => False
  | _ => True

variable {w w' w'' : Workspace} {id : EntryId} {e : Entry} {data : Bytes} {issues : List Issue}

namespace Keeps

theorem refl (w : Workspace) : Keeps w w := ⟨⟨[], rfl⟩, rfl⟩

theorem trans (h : Keeps w w') (h' : Keeps w' w'') : Keeps w w'' := by
  obtain ⟨first, rfl⟩ := h.requests
  obtain ⟨second, rfl⟩ := h'.requests
  exact ⟨⟨first ++ second, (w.run_append first second).symm⟩, h'.contents.trans h.contents⟩

theorem after (w : Workspace) {q : Request} (hplain : q.IsPlain) : Keeps w (w.after q) := by
  refine ⟨⟨[q], rfl⟩, ?_⟩
  rcases w.after_cases q with h | ⟨-, h⟩ | ⟨-, h⟩
  · rw [h]
  · rw [h]
    rfl
  · generalize w.after q = w' at h
    cases h with
    | directory | archive | view => rfl
    | file | content => cases hplain

/-- What a plain request leaves if it is accepted. -/
theorem of_ok {α : Type} {q : Request} {attempt : Except WorkspaceError (Workspace × α)} {v : α}
    (hplain : q.IsPlain) (hafter : w.after q = w.settled attempt) (h : attempt = .ok (w', v)) :
    Keeps w w' := by
  have hw' : w.after q = w' := by rw [hafter, h, settled]
  exact hw' ▸ after w hplain

theorem isFile_iff (h : Keeps w w') (hw : w.Coherent) (id : EntryId) :
    w'.IsFile id ↔ w.IsFile id := by
  obtain ⟨requests, hrun⟩ := h.requests
  have hw' : w'.Coherent := hrun ▸ hw.run requests
  rw [← hw.content_iff, ← hw'.content_iff, h.contents]

/-- What a file holds is what it held. -/
theorem snapshot (h : Keeps w w') (hw : w.Coherent) {c : Content} (hc : w.snapshot id = .ok c) :
    w'.snapshot id = .ok c := by
  obtain ⟨requests, hrun⟩ := h.requests
  have hw' : w'.Coherent := hrun ▸ hw.run requests
  rw [hw'.snapshot_eq_ok_iff, h.contents]
  exact (hw.snapshot_eq_ok_iff id c).mp hc

end Keeps

namespace Tells

theorem keeps (h : Tells w e issues)
    (hkept : ∀ c, w.snapshot e.id = .ok c → w'.snapshot e.id = .ok c) : Tells w' e issues := by
  obtain ⟨last, data, hlast, hfile, hc⟩ := h.current
  exact ⟨h.notices, h.revisions, last, data, hlast, hfile, hkept _ hc⟩

/-- A file that has just been added has one event. -/
theorem added {i : Issue} (hnotice : i.event.notice = .added e data)
    (hc : i.state.snapshot e.id = .ok ⟨data, Revision.first⟩) : Tells i.state e [i] := by
  have hfile : i.event.notice.file? = some (e, data) := by rw [hnotice, Notice.file?]
  refine ⟨⟨data, [], by simp [hnotice]⟩, ?_, i, data, rfl, hfile, hc⟩
  intro k j hj
  cases k with
  | zero =>
      obtain rfl : i = j := by simpa using hj
      exact ⟨data, hfile, hc⟩
  | succ k => simp at hj

/-- New content has one more event. -/
theorem updated {i : Issue} {c : Content} (h : Tells w e issues) (hc : w.snapshot e.id = .ok c)
    (hnotice : i.event.notice = .updated e data)
    (hc' : i.state.snapshot e.id = .ok ⟨data, c.revision.next⟩) :
    Tells i.state e (issues ++ [i]) := by
  have hfile : i.event.notice.file? = some (e, data) := by rw [hnotice, Notice.file?]
  obtain ⟨_, _, _, _, hcurrent⟩ := h.current
  cases hcurrent.symm.trans hc
  obtain ⟨first, later, hnotices⟩ := h.notices
  refine ⟨⟨first, later ++ [data], ?_⟩, ?_, i, data, List.getLast?_concat, hfile, ?_⟩
  · rw [List.map_append, hnotices]
    simp [hnotice]
  · intro k j hj
    rcases Nat.lt_trichotomy k issues.length with hlt | rfl | hgt
    · rw [List.getElem?_append_left hlt] at hj
      exact h.revisions k j hj
    · obtain rfl : i = j := by simpa using hj
      exact ⟨data, hfile, hc'⟩
    · rw [List.getElem?_eq_none (by simp; omega)] at hj
      cases hj
  · rw [List.length_append]
    exact hc'

end Tells

namespace Chronicle

theorem empty : Chronicle {} [] where
  coherent := coherent_empty
  tree := isTree_empty
  told _ _ h := by cases h
  others _ _ := rfl

theorem keeps (h : Chronicle w issues) (hkeeps : Keeps w w') : Chronicle w' issues := by
  have hfile (id : EntryId) := hkeeps.isFile_iff h.coherent id
  obtain ⟨requests, hrun⟩ := hkeeps.requests
  refine ⟨hrun ▸ h.coherent.run requests, hrun ▸ h.tree.run requests, ?_, ?_⟩
  · intro id e he hplain
    obtain ⟨e', he', hplain'⟩ := (hfile id).mp ⟨e, he, hplain⟩
    have hkept : w'.entry? id = some e' := by
      rw [hrun]
      exact IsTree.entry?_of_prefix (files_begin w requests) he'
    cases hkept.symm.trans he
    exact (h.told id e he' hplain).keeps fun c => hkeeps.snapshot h.coherent
  · intro id hnot
    exact h.others id fun hfile' => hnot ((hfile id).mpr hfile')

/-- The event of a commit comes after the others of its file, and no other file has it. -/
theorem filter_concat (issues : List Issue) {i : Issue}
    (hfile : i.event.notice.file? = some (e, data)) (id : EntryId) :
    (issues ++ [i]).filter (·.isAbout id) =
      issues.filter (·.isAbout id) ++ if e.id = id then [i] else [] := by
  have habout : i.isAbout id = decide (e.id = id) := by
    rw [Issue.isAbout, hfile]
    rfl
  rw [List.filter_append, List.filter_cons, habout]
  by_cases hid : e.id = id <;> simp [hid]

/-- A file is added, and an event tells that. -/
theorem addFile (h : Chronicle w issues) {name : String} {parent : Option EntryId} {seq : Nat}
    (hadd : w.addFile name parent data = .ok (w', e)) :
    Chronicle w' (issues ++ [⟨⟨seq, .added e data⟩, w'⟩]) := by
  obtain ⟨-, rfl, rfl⟩ := addFile_ok hadd
  have hw := h.coherent
  have hw' := hw.file name parent data
  have htree : (w.withFile name parent data).IsTree := by
    have hafter : w.after (.file name parent data) = w.withFile name parent data := by
      rw [after, hadd, settled]
    exact hafter ▸ h.tree.after (.file name parent data)
  have hentry (id : EntryId) : entry? (w.withFile name parent data) id =
      if id = ⟨w.lastId + 1⟩ then some { id := ⟨w.lastId + 1⟩, name, parent } else w.entry? id :=
    hw.find_withEntry _ id
  refine ⟨hw', htree, ?_, ?_⟩
  · intro id e he hplain
    rw [filter_concat issues rfl]
    by_cases hid : id = ⟨w.lastId + 1⟩
    · subst hid
      rw [hentry, if_pos rfl] at he
      cases he
      have hnone : ¬ w.IsFile ⟨w.lastId + 1⟩ := by
        rintro ⟨e, he, -⟩
        rw [hw.find_next] at he
        cases he
      rw [h.others _ hnone, if_pos rfl]
      refine Tells.added (i := ⟨⟨seq, _⟩, w.withFile name parent data⟩) rfl ?_
      refine (hw'.snapshot_eq_ok_iff _ _).mpr ?_
      rw [hw.lookup_withFile, if_pos rfl]
    · rw [hentry, if_neg hid] at he
      rw [if_neg (Ne.symm hid), List.append_nil]
      obtain rfl : e.id = id := h.tree.own_id id e ((h.tree.entry?_eq_some_iff id e).mp he)
      refine (h.told _ e he hplain).keeps fun c hc => (hw'.snapshot_eq_ok_iff _ c).mpr ?_
      rw [hw.lookup_withFile, if_neg hid]
      exact (hw.snapshot_eq_ok_iff _ c).mp hc
  · intro id hnot
    have hid : id ≠ ⟨w.lastId + 1⟩ := by
      rintro rfl
      exact hnot ⟨_, by rw [hentry, if_pos rfl], rfl⟩
    rw [filter_concat issues rfl, if_neg (Ne.symm hid), List.append_nil]
    refine h.others id fun hfile => hnot ?_
    obtain ⟨e, he, hplain⟩ := hfile
    exact ⟨e, by rw [hentry, if_neg hid, he], hplain⟩

/-- A file gets new content, and an event tells that. -/
theorem update (h : Chronicle w issues) {seq : Nat}
    (hupdate : w.update id data = .ok (w', e)) :
    Chronicle w' (issues ++ [⟨⟨seq, .updated e data⟩, w'⟩]) := by
  obtain ⟨-, hfile, rfl⟩ := update_ok hupdate
  have hw := h.coherent
  have hw' := hw.content data (isFile_of_file hfile)
  have htree : (w.withContent id data).IsTree := by
    have hafter : w.after (.update id data) = w.withContent id data := by
      rw [after, hupdate, settled]
    exact hafter ▸ h.tree.after (.update id data)
  obtain ⟨hfound, hplain⟩ := (w.file_eq_ok_iff id e).mp hfile
  have hown {id : EntryId} {e : Entry} (he : w.entry? id = some e) : e.id = id :=
    h.tree.own_id id e ((h.tree.entry?_eq_some_iff id e).mp he)
  refine ⟨hw', htree, ?_, ?_⟩
  · intro other e' he' hplain'
    rw [find_withContent] at he'
    have htold := h.told other e' he' hplain'
    rw [filter_concat issues rfl, hown hfound]
    by_cases hid : other = id
    · subst hid
      cases hfound.symm.trans he'
      obtain ⟨c, hc⟩ := Option.isSome_iff_exists.mp ((hw.content_iff other).mpr ⟨e, hfound, hplain⟩)
      have hold : w.snapshot e.id = .ok c := by
        rw [hown hfound]
        exact (hw.snapshot_eq_ok_iff other c).mpr hc
      rw [if_pos rfl]
      refine htold.updated (i := ⟨⟨seq, _⟩, w.withContent other data⟩) hold rfl ?_
      refine (hw'.snapshot_eq_ok_iff _ _).mpr ?_
      rw [hown hfound, lookup_withContent, if_pos rfl, revision_of_lookup hc]
    · rw [if_neg (Ne.symm hid), List.append_nil]
      obtain rfl : e'.id = other := hown he'
      refine htold.keeps fun c hc => (hw'.snapshot_eq_ok_iff _ c).mpr ?_
      rw [lookup_withContent, if_neg hid]
      exact (hw.snapshot_eq_ok_iff _ c).mp hc
  · intro other hnot
    rw [isFile_withContent] at hnot
    have hid : id ≠ other := by
      rintro rfl
      exact hnot ⟨e, hfound, hplain⟩
    rw [filter_concat issues rfl, hown hfound, if_neg hid, List.append_nil]
    exact h.others other hnot

end Chronicle

end Workspace

end EventHub
