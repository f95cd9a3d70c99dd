import EventHub.Proofs.Workspace.Lasting

/-!
What the name of a kept view stands for. A view is found under its file and its type, and told
from others that stood there by the stamp of its store. So as long as no two stores have one
stamp, a name stands for the data of its own store, and once that is gone for nothing.
-/

namespace EventHub.Workspace

/-- The view that a request keeps, if it is an accepted store. -/
def storedBy (w : Workspace) : Request → List View
  | .store id revision viewType data stamp =>
    match w.store id revision viewType data stamp with
    | .ok (_, r) => [r]
    | .error _ => []
  | _ => []

/-- The views that were kept in a run of requests, in the order of their stores. -/
def stored (w : Workspace) : List Request → List View
  | [] => []
  | q :: rest => w.storedBy q ++ stored (w.after q) rest

/-- No two stores of the run have one stamp. -/
def DistinctStamps (w : Workspace) (requests : List Request) : Prop :=
  (w.stored requests).Pairwise fun a b => a.stamp ≠ b.stamp

instance (w : Workspace) (requests : List Request) : Decidable (w.DistinctStamps requests) :=
  inferInstanceAs (Decidable (List.Pairwise _ _))

/-- An accepted store of a view of this file and type. -/
def Replaces (w : Workspace) (q : Request) (file : EntryId) (viewType : String) : Prop :=
  ∃ revision data stamp w' r, q = .store file revision viewType data stamp ∧
    w.store file revision viewType data stamp = .ok (w', r)

/-- In the course of the requests an update of the file is accepted, or another store of a
view of this type. -/
def Ended (w : Workspace) (requests : List Request) (file : EntryId) (viewType : String) : Prop :=
  ∃ before q rest, requests = before ++ q :: rest ∧
    ((w.run before).Updates q file ∨ (w.run before).Replaces q file viewType)

/-- The request is about what this file holds, or about its view of this type. -/
def Request.Concerns (file : EntryId) (viewType : String) : Request → Prop
  | .update id _ => id = file
  | .store id _ stored _ _ => id = file ∧ stored = viewType
  | _ => False

variable {w w' : Workspace} {requests before later : List Request} {q : Request}
  {file : EntryId} {viewType : String} {revision : Revision} {data : Bytes} {stamp : Nat} {r : View}

theorem stored_append (w : Workspace) (first second : List Request) :
    w.stored (first ++ second) = w.stored first ++ (w.run first).stored second := by
  induction first generalizing w with
  | nil => rfl
  | cons q rest ih =>
      rw [List.cons_append, stored, stored, ih, List.append_assoc, run, run, List.foldl_cons]

theorem storedBy_of_store
    (h : w.store file revision viewType data stamp = .ok (w', r)) :
    w.storedBy (.store file revision viewType data stamp) = [r] := by
  rw [storedBy, h]

theorem not_ended_nil : ¬ w.Ended [] file viewType := by
  rintro ⟨before, q, rest, hrequests, -⟩
  simp at hrequests

theorem ended_concat : w.Ended (requests ++ [q]) file viewType ↔
    w.Ended requests file viewType ∨
      (w.run requests).Updates q file ∨ (w.run requests).Replaces q file viewType := by
  constructor
  · rintro ⟨before, q', rest, hrequests, hends⟩
    rcases List.eq_nil_or_concat rest with rfl | ⟨rest, last, rfl⟩
    · obtain ⟨rfl, hq⟩ := List.append_inj' hrequests rfl
      obtain rfl : q = q' := by simpa using hq
      exact Or.inr hends
    · have hsplit : requests ++ [q] = (before ++ q' :: rest) ++ [last] := by simp [hrequests]
      obtain ⟨rfl, -⟩ := List.append_inj' hsplit rfl
      exact Or.inl ⟨before, q', rest, rfl, hends⟩
  · rintro (⟨before, q', rest, rfl, hends⟩ | hends)
    · exact ⟨before, q', rest ++ [q], by simp, hends⟩
    · exact ⟨requests, q, [], rfl, hends⟩

/-- An accepted update of a file takes its views away. -/
theorem lookup_of_updates (h : w.Updates q file) (viewType : String) :
    (w.after q).views.lookup (file, viewType) = none := by
  obtain ⟨data, w', e, rfl, hupdate⟩ := h
  obtain ⟨-, -, rfl⟩ := update_ok hupdate
  have hgone := Lookup.lookup_filter_key w.views (fun k => k.1 ≠ file) (file, viewType)
  simp only [after, hupdate, settled, withContent]
  rw [hgone]
  exact if_neg (by simp)

/-- An accepted store puts its view under the key. -/
theorem lookup_of_store (h : w.store file revision viewType data stamp = .ok (w', r)) :
    (w.after (.store file revision viewType data stamp)).views.lookup (file, viewType) =
      some ⟨r, data⟩ := by
  obtain ⟨-, -, -, hr, rfl⟩ := store_ok h
  have hkey : (file, viewType) = (r.file, r.viewType) := by rw [hr]
  simp only [after, h, settled]
  rw [lookup_withView, if_pos hkey]

/-- Nothing else touches what stands under the key. -/
theorem lookup_of_neither (hupdates : ¬ w.Updates q file)
    (hreplaces : ¬ w.Replaces q file viewType) :
    (w.after q).views.lookup (file, viewType) = w.views.lookup (file, viewType) := by
  rcases lookup_view_after w q file viewType with
    hsame | ⟨hupdates', -⟩ | ⟨revision, data, stamp, r, hq, hstore, -⟩
  · exact hsame
  · exact absurd hupdates' hupdates
  · exact absurd ⟨revision, data, stamp, _, r, hq, hstore⟩ hreplaces

/-- Under the key of a view stands the view with its data, as long as nothing has ended it; and
nothing or a view that was stored since, once something has. -/
inductive Stands (w : Workspace) (later : List Request) (r : View) (data : Bytes) : Prop where
  | kept (hkept : (w.run later).views.lookup (r.file, r.viewType) = some ⟨r, data⟩)
      (hlasts : ¬ w.Ended later r.file r.viewType)
  | gone (hgone : (w.run later).views.lookup (r.file, r.viewType) = none)
      (hended : w.Ended later r.file r.viewType)
  | replaced (v : KeptView) (hother : (w.run later).views.lookup (r.file, r.viewType) = some v)
      (hstored : v.view ∈ w.stored later) (hended : w.Ended later r.file r.viewType)

theorem Stands.concat (h : w.Stands later r data) (q : Request) :
    w.Stands (later ++ [q]) r data := by
  have hstored : w.stored (later ++ [q]) = w.stored later ++ (w.run later).storedBy q := by
    rw [stored_append, stored, stored, List.append_nil]
  by_cases hupdates : (w.run later).Updates q r.file
  · have hgone := lookup_of_updates hupdates r.viewType
    rw [← run_concat] at hgone
    exact .gone hgone (ended_concat.mpr (Or.inr (Or.inl hupdates)))
  by_cases hreplaces : (w.run later).Replaces q r.file r.viewType
  · obtain ⟨revision, bytes, stamp, w', v, rfl, hstore⟩ := hreplaces
    have hfound := lookup_of_store hstore
    rw [← run_concat] at hfound
    refine .replaced _ hfound ?_ (ended_concat.mpr (Or.inr (Or.inr ?_)))
    · rw [hstored, storedBy_of_store hstore]
      exact List.mem_append_right _ (List.mem_singleton_self v)
    · exact ⟨revision, bytes, stamp, w', v, rfl, hstore⟩
  have hsame := lookup_of_neither hupdates hreplaces
  rw [← run_concat] at hsame
  cases h with
  | kept hkept hlasts =>
      refine .kept (hsame.trans hkept) fun hended => ?_
      rcases ended_concat.mp hended with hbefore | hupdates' | hreplaces'
      · exact hlasts hbefore
      · exact hupdates hupdates'
      · exact hreplaces hreplaces'
  | gone hgone hended => exact .gone (hsame.trans hgone) (ended_concat.mpr (Or.inl hended))
  | replaced v hother hmem hended =>
      refine .replaced v (hsame.trans hother) ?_ (ended_concat.mpr (Or.inl hended))
      rw [hstored]
      exact List.mem_append_left _ hmem

/-- What stands under the key of a view after its store, whatever is asked for since. -/
theorem stands_run (h : w.store file revision viewType data stamp = .ok (w', r))
    (later : List Request) :
    (w.after (.store file revision viewType data stamp)).Stands later r data := by
  induction later using List.reverseRecOn with
  | nil =>
      obtain ⟨-, -, -, hr, -⟩ := store_ok h
      refine .kept ?_ not_ended_nil
      have hfound := lookup_of_store h
      rw [hr] at hfound ⊢
      exact hfound
  | append_singleton later q ih => exact ih.concat q

/-- A stamp that stands for another view. -/
theorem viewData_of_other {v : KeptView} (h : w.views.lookup (r.file, r.viewType) = some v)
    (hstamp : v.view.stamp ≠ r.stamp) :
    w.viewData r = .error (.unknownView r.file r.viewType) := by
  rw [viewData, h]
  exact if_neg hstamp

theorem viewData_of_none (h : w.views.lookup (r.file, r.viewType) = none) :
    w.viewData r = .error (.unknownView r.file r.viewType) := by
  rw [viewData, h]

/-- A request that does not concern a view leaves its place alone. -/
theorem lookup_of_not_concerns (w : Workspace) (h : ¬ q.Concerns file viewType) :
    (w.after q).views.lookup (file, viewType) = w.views.lookup (file, viewType) := by
  refine lookup_of_neither ?_ ?_
  · rintro ⟨data, w', e, rfl, -⟩
    exact h rfl
  · rintro ⟨revision, data, stamp, w', r, rfl, -⟩
    exact h ⟨rfl, rfl⟩

theorem viewData_of_not_concerns (w : Workspace) (h : ¬ q.Concerns r.file r.viewType) :
    (w.after q).viewData r = w.viewData r := by
  rw [viewData, lookup_of_not_concerns w h, viewData]

theorem Coherent.view?_of_not_concerns (hw : Coherent w) (hfile : (w.entry? file).isSome)
    (h : ¬ q.Concerns file viewType) :
    (w.after q).view? file viewType = w.view? file viewType := by
  obtain ⟨e, he⟩ := Option.isSome_iff_exists.mp hfile
  rw [view?, (entry_eq_ok_iff _ file e).mpr (hw.entry_after q he), lookup_of_not_concerns w h,
    view?, (entry_eq_ok_iff w file e).mpr he]

theorem Coherent.entry_run (hw : Coherent w) (requests : List Request) {id : EntryId} {e : Entry}
    (h : w.entry? id = some e) : entry? (w.run requests) id = some e := by
  induction requests using List.reverseRecOn with
  | nil => exact h
  | append_singleton requests q ih =>
      rw [run_concat]
      exact (hw.run requests).entry_after q ih

/-- Names of kept views. While a file is not updated and no other view of the type is stored,
the name that a store has given is found, and stands for the data of that store; after either
it stands for nothing, whatever is asked for then. Requests about other files and other types do
not touch it. -/
theorem view_stands_for_its_store (before later : List Request) (file : EntryId)
    (revision : Revision) (viewType : String) (data : Bytes) (stamp : Nat) (w' : Workspace)
    (r : View)
    (hstore : (run {} before).store file revision viewType data stamp = .ok (w', r))
    (hstamps : DistinctStamps {} (before ++ .store file revision viewType data stamp :: later)) :
    let now := w'.run later
    (¬ w'.Ended later file viewType →
      now.view? file viewType = .ok (some r) ∧ now.viewData r = .ok data) ∧
    (w'.Ended later file viewType →
      now.viewData r = .error (.unknownView file viewType)) ∧
    ∀ q : Request, ¬ q.Concerns file viewType →
      (now.after q).viewData r = now.viewData r ∧
      (now.after q).view? file viewType = now.view? file viewType := by
  intro now
  have hbefore : Coherent (run {} before) := coherent_empty.run before
  have hafter : (run {} before).after (.store file revision viewType data stamp) = w' := by
    simp only [after, hstore, settled]
  obtain ⟨-, ⟨e, he, -⟩, -, hr, -⟩ := store_ok hstore
  have hfile : r.file = file := by rw [hr]
  have htype : r.viewType = viewType := by rw [hr]
  have hw' : Coherent w' := hafter ▸ hbefore.after _
  have hentry : now.entry? file = some e :=
    hw'.entry_run later (hafter ▸ hbefore.entry_after _ he)
  have hstands := stands_run hstore later
  rw [hafter] at hstands
  -- The stores since have other stamps.
  have hothers : ∀ v ∈ w'.stored later, v.stamp ≠ r.stamp := by
    rw [DistinctStamps, stored_append, stored, storedBy_of_store hstore, hafter] at hstamps
    have hsince := (List.pairwise_append.mp hstamps).2.1
    intro v hv
    exact ((List.pairwise_cons.mp hsince).1 v hv).symm
  refine ⟨fun hlasts => ?_, fun hended => ?_, fun q hq => ⟨?_, ?_⟩⟩
  · cases hstands with
    | kept hkept hlasts' =>
        refine ⟨(view?_eq_ok_iff _ _ _ _).mpr ⟨Option.isSome_of_eq_some hentry, ?_⟩,
          viewData_of_lookup hkept⟩
        rw [← hfile, ← htype, hkept]
        rfl
    | gone hgone hended => exact absurd (hfile ▸ htype ▸ hended) hlasts
    | replaced v hother hstored hended => exact absurd (hfile ▸ htype ▸ hended) hlasts
  · rw [← hfile, ← htype] at hended ⊢
    cases hstands with
    | kept hkept hlasts => exact absurd hended hlasts
    | gone hgone hended => exact viewData_of_none hgone
    | replaced v hother hstored hended => exact viewData_of_other hother (hothers _ hstored)
  · exact viewData_of_not_concerns now (by rwa [hfile, htype])
  · exact (hw'.run later).view?_of_not_concerns (Option.isSome_of_eq_some hentry) hq

/-- A view of another type, an update, and the view anew. -/
def regenerated : List Request :=
  [.store ⟨1⟩ ⟨1⟩ "tree" [8] 11, .update ⟨1⟩ [2], .store ⟨1⟩ ⟨2⟩ "text" [7] 12]

theorem view_stands_for_its_store_regenerated :
    let added := run {} [.file "Main" none [1]]
    let kept := added.after (.store ⟨1⟩ ⟨1⟩ "text" [9] 10)
    let r : View := { file := ⟨1⟩, viewType := "text", revision := ⟨1⟩, stamp := 10 }
    added.store ⟨1⟩ ⟨1⟩ "text" [9] 10 = .ok (kept, r) ∧
    (kept.run (regenerated.take 1)).viewData r = .ok [9] ∧
    kept.Ended regenerated ⟨1⟩ "text" ∧
    (kept.run regenerated).viewData r = .error (.unknownView ⟨1⟩ "text") := by
  intro added kept r
  have hstore : added.store ⟨1⟩ ⟨1⟩ "text" [9] 10 = .ok (kept, r) := by rfl
  have hended : kept.Ended regenerated ⟨1⟩ "text" :=
    ⟨regenerated.take 1, .update ⟨1⟩ [2], regenerated.drop 2, rfl,
      Or.inl ⟨[2], _, _, rfl, rfl⟩⟩
  have hnames := view_stands_for_its_store [.file "Main" none [1]] regenerated ⟨1⟩ ⟨1⟩ "text" [9]
    10 kept r hstore (by decide)
  exact ⟨hstore, rfl, hended, hnames.2.1 hended⟩

end EventHub.Workspace
