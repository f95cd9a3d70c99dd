import EventHub.Proofs.Views.Genuine

/-!
How long a view lasts. A view that a call has stored is found with its data until an update of
the file is accepted; or until another call stores its own view of the same content, which had
found no view before the first one was stored. Looking for a view and storing one are
different turns, so the second call does not see what the first one has done, and the view that
the first one has returned is unknown from then on.
-/

namespace EventHub

open EventHub.Script EventHub.Simulation

namespace Studio

open Generation

variable {P : Type}

section

variable (generate : P → Entry → Bytes → Except String Bytes)

/-- No update of the file was accepted in between. -/
def Unchanged (since upto : List (Move P)) (file : EntryId) : Prop :=
  ∀ before q, since <+: before → before ++ [.request q] <+: upto →
    ¬ (run generate before).workspace.Updates q file

/-- After the call has stored its view, another one that had missed it has put its own view of
the same content in the place. -/
def Replaced (n : Nat) (r : View) (stored upto : List (Move P)) : Prop :=
  ∃ k g missed stamp data later, k ≠ n ∧ g.file = r.file ∧ g.viewType = r.viewType ∧
    Missed generate upto k g missed ∧ missed <+: stored ∧
    (run generate later).calls[k]? = some ⟨g, .keeping r.revision data⟩ ∧
    Stored generate upto k { r with stamp } data later ∧ stored <+: later

/-- The view has been kept ever since. -/
def KeptSince (r : View) (data : Bytes) (stored upto : List (Move P)) : Prop :=
  ∀ point, point <+: upto → stored.length < point.length →
    (run generate point).workspace.views.lookup (r.file, r.viewType) = some ⟨r, data⟩

/-- A view that a call has returned was stored by a call. After that it is found with its data
as long as the file is not updated and no other call has put its own view in the place. -/
def Lasting (moves : List (Move P)) : Prop :=
  CallsOnly moves → ∀ (n : Nat) (g : Generation) (r : View),
    (run generate moves).calls[n]? = some ⟨g, .ended (.returned (.ok (some r)))⟩ →
    ∃ k data stored, Stored generate moves k r data stored ∧
      ∀ seen, seen <+: moves → stored.length < seen.length →
        Unchanged generate stored seen r.file →
        (run generate seen).workspace.viewData r = .ok data ∨ Replaced generate k r stored seen

end

variable {generate : P → Entry → Bytes → Except String Bytes} {moves later : List (Move P)}
  {n : Nat}

theorem Unchanged.of_le {since : List (Move P)} {file : EntryId}
    (h : Unchanged generate since later file) (hle : moves <+: later) :
    Unchanged generate since moves file :=
  fun before q hsince hbefore => h before q hsince (hbefore.trans hle)

theorem Replaced.mono {r : View} {stored : List (Move P)}
    (h : Replaced generate n r stored moves) (hle : moves <+: later) :
    Replaced generate n r stored later := by
  obtain ⟨k, g, missed, stamp, data, point, hne, hfile, htype, hmissed, hbefore, hcall, hstored,
    hafter⟩ := h
  exact ⟨k, g, missed, stamp, data, point, hne, hfile, htype, hmissed.mono hle, hbefore, hcall,
    hstored.mono hle, hafter⟩

/-- Data that is stored is what the file holds, so without an update it is of one revision. -/
theorem revision_of_unchanged {since : List (Move P)} {file : EntryId} {c c' : Content}
    (h : Unchanged generate since moves file) (hle : since <+: moves)
    (hc : (run generate since).workspace.snapshot file = .ok c)
    (hc' : (run generate moves).workspace.snapshot file = .ok c') : c'.revision = c.revision := by
  by_contra hchanged
  obtain ⟨before, q, hbefore, hafter, hupdates⟩ := updated_between hle hc hc' hchanged
  exact h before q hbefore hafter hupdates

/-- A call that keeps its data had missed the view. -/
theorem missed_of_keeping {g : Generation} {revision : Revision} {data : Bytes}
    (hcall : (run generate moves).calls[n]? = some ⟨g, .keeping revision data⟩) :
    ∃ missed, Missed generate moves n g missed := by
  have htraced := (accounted_run moves n _ hcall).traced
  cases htraced with
  | keeping _ _ _ _ missed _ hmissed => exact ⟨missed, hmissed⟩

/-- A call that has stored its view is over. -/
theorem Stored.ended {r : View} {data : Bytes} {seen : List (Move P)}
    (h : Stored generate moves n r data seen) :
    ∃ c, (run generate moves).calls[n]? = some c ∧ c.stage.IsEnded := by
  obtain ⟨g, job, now, stamp, hturn, hcall, hstore⟩ := h
  obtain ⟨content, hcontent, hcurrent⟩ := Workspace.snapshot_of_store hstore
  have hturned := Generation.Call.turned ⟨g, .keeping r.revision data⟩
    (run generate seen).workspace (run generate seen).views job now
  have hover := hturned.ended_of_current hcontent hcurrent
  obtain ⟨-, hcall'⟩ := call_turn generate hcall job now
  rw [← run_concat] at hcall'
  exact ⟨_, ended_onward hcall' hover hturn, hover⟩

/-- A view is stored of what the file holds. -/
theorem Stored.current {r : View} {data : Bytes} {seen : List (Move P)}
    (h : Stored generate moves n r data seen) :
    ∃ c, (run generate seen).workspace.snapshot r.file = .ok c ∧ c.revision = r.revision := by
  obtain ⟨g, job, now, stamp, -, -, hstore⟩ := h
  obtain ⟨-, -, -, hr, -⟩ := Workspace.store_ok hstore
  have hfile : r.file = g.file := by rw [hr]
  rw [hfile]
  exact Workspace.snapshot_of_store hstore

/-- Whoever stores a view in the place of one that is kept had missed that one before it was
stored. -/
theorem replaced_of_store {r r' : View} {data data' : Bytes} {stored : List (Move P)}
    {g : Generation} {k stamp now : Nat} {job : Except JobError Unit} {revision : Revision}
    (hstored : Stored generate moves n r data stored)
    (hunchanged : Unchanged generate stored moves r.file)
    (hkept : KeptSince generate r data stored moves)
    (hcall : (run generate moves).calls[k]? = some ⟨g, .keeping revision data'⟩)
    (hstore : (run generate moves).workspace.store g.file revision g.viewType data' stamp =
      .ok ((run generate (moves ++ [.turn k job now])).workspace, r'))
    (hfile : g.file = r.file) (htype : g.viewType = r.viewType) :
    Replaced generate n r stored (moves ++ [.turn k job now]) := by
  have hle : moves <+: moves ++ [.turn k job now] := List.prefix_append _ _
  have hother : k ≠ n := by
    rintro rfl
    obtain ⟨c, hover, outcome, hended⟩ := hstored.ended
    cases hover.symm.trans hcall
    cases hended
  obtain ⟨missed, hmissed⟩ := missed_of_keeping hcall
  have hbefore : missed <+: stored := by
    obtain ⟨job', now', hturn⟩ := hmissed.1.turn
    have hpoint : missed <+: moves := (List.prefix_append missed _).trans hturn
    by_cases hlater : stored.length < missed.length
    · -- The view was kept by then, so the call would have found it.
      have hfound := hkept missed hpoint hlater
      obtain ⟨-, hnone⟩ := (Workspace.view?_eq_ok_iff _ _ _ _).mp hmissed.2
      rw [hfile, htype, hfound] at hnone
      cases hnone
    · exact List.prefix_of_prefix_length_le hpoint hstored.seen (Nat.le_of_not_lt hlater)
  have hsame : revision = r.revision := by
    obtain ⟨c, hc, hold⟩ := hstored.current
    obtain ⟨c', hc', hnew⟩ := Workspace.snapshot_of_store hstore
    rw [hfile] at hc'
    rw [← hnew, revision_of_unchanged hunchanged hstored.seen hc hc', hold]
  subst hsame
  obtain ⟨-, -, -, hr', -⟩ := Workspace.store_ok hstore
  rw [hfile, htype] at hr'
  subst hr'
  refine ⟨k, g, missed, stamp, data', moves, hother, hfile, htype, hmissed.mono hle, hbefore,
    hcall, ⟨g, job, now, stamp, List.prefix_rfl, hcall, hstore⟩, hstored.seen⟩

theorem Stored.length_lt {r : View} {data : Bytes} {stored : List (Move P)}
    (h : Stored generate moves n r data stored) : stored.length < moves.length := by
  obtain ⟨g, job, now, stamp, hturn, -⟩ := h
  have hlength := hturn.length_le
  rw [List.length_append] at hlength
  exact hlength

/-- In every state after its turn the view has been stored. -/
theorem Stored.upto {r : View} {data : Bytes} {stored seen : List (Move P)}
    (h : Stored generate moves n r data stored) (hseen : seen <+: moves)
    (hlater : stored.length < seen.length) : Stored generate seen n r data stored := by
  obtain ⟨g, job, now, stamp, hturn, hstored⟩ := h
  have hlength : (stored ++ [Move.turn n job now]).length ≤ seen.length := by
    rw [List.length_append]
    exact hlater
  exact ⟨g, job, now, stamp, List.prefix_of_prefix_length_le hturn hseen hlength, hstored⟩

/-- One move leaves a kept view in its place, or it is a call that stores its own. -/
theorem lookup_step {m : Move P} (hcalls : CallsOnly (moves ++ [m])) {file : EntryId}
    {viewType : String} {v : KeptView} (hunchanged : Unchanged generate moves (moves ++ [m]) file)
    (hkept : (run generate moves).workspace.views.lookup (file, viewType) = some v) :
    (run generate (moves ++ [m])).workspace.views.lookup (file, viewType) = some v ∨
      ∃ k g revision data stamp r job now, m = .turn k job now ∧ g.file = file ∧
        g.viewType = viewType ∧
        (run generate moves).calls[k]? = some ⟨g, .keeping revision data⟩ ∧
        (run generate moves).workspace.store g.file revision g.viewType data stamp =
          .ok ((run generate (moves ++ [m])).workspace, r) := by
  rcases workspace_cases generate (run generate moves) m with hsame | ⟨q, rfl, hq⟩ |
    ⟨k, g, revision, data, stamp, r, ⟨job, now, rfl⟩, hcall, hstore⟩
  · left
    rw [run_concat, hsame]
    exact hkept
  · rcases (run generate moves).workspace.lookup_view_after q file viewType with
      hsame | ⟨hupdates, -⟩ | ⟨revision, data, stamp, r, rfl, -⟩
    · left
      rw [run_concat, hq, hsame]
      exact hkept
    · exact absurd hupdates (hunchanged moves q List.prefix_rfl List.prefix_rfl)
    · exact absurd (by simp) (hcalls file revision viewType data stamp)
  · rw [← run_concat] at hstore
    by_cases hkey : (file, viewType) = (g.file, g.viewType)
    · obtain ⟨rfl, rfl⟩ : file = g.file ∧ viewType = g.viewType := by simpa using hkey
      exact Or.inr ⟨k, g, revision, data, stamp, r, job, now, rfl, rfl, rfl, hcall, hstore⟩
    · left
      obtain ⟨-, -, -, hr, hview⟩ := Workspace.store_ok hstore
      rw [hview, Workspace.lookup_withView, hr, if_neg hkey]
      exact hkept

/-- A view that has been stored was stored in the last move or before it. -/
theorem Stored.of_concat {m : Move P} {r : View} {data : Bytes} {stored : List (Move P)}
    (h : Stored generate (moves ++ [m]) n r data stored) :
    (stored = moves ∧ (run generate (moves ++ [m])).workspace.views.lookup (r.file, r.viewType) =
      some ⟨r, data⟩) ∨ Stored generate moves n r data stored := by
  obtain ⟨g, job, now, stamp, hturn, hcall, hstore⟩ := h
  rcases List.prefix_concat_iff.mp hturn with hlast | hbefore
  · left
    rw [hlast] at hstore
    obtain ⟨-, -, -, -, hview⟩ := Workspace.store_ok hstore
    rw [hview, Workspace.lookup_withView, if_pos rfl]
    exact ⟨(List.append_inj' hlast rfl).1, rfl⟩
  · exact Or.inr ⟨g, job, now, stamp, hbefore, hcall, hstore⟩

/-- What a call has stored is kept until the file is updated or another view takes its place. -/
theorem Stored.lasts (hcalls : CallsOnly moves) {r : View} {data : Bytes}
    {stored : List (Move P)} (hstored : Stored generate moves n r data stored)
    (hunchanged : Unchanged generate stored moves r.file) :
    KeptSince generate r data stored moves ∨ Replaced generate n r stored moves := by
  induction moves using List.reverseRecOn with
  | nil => exact absurd hstored.length_lt (Nat.not_lt_zero _)
  | append_singleton moves m ih =>
      have hle : moves <+: moves ++ [m] := List.prefix_append _ _
      rcases hstored.of_concat with ⟨rfl, hlast⟩ | hearlier
      · left
        intro point hpoint hlater
        rcases List.prefix_concat_iff.mp hpoint with rfl | hbefore
        · exact hlast
        · exact absurd hlater (Nat.not_lt.mpr hbefore.length_le)
      · rcases ih (hcalls.of_le hle) hearlier (hunchanged.of_le hle) with hkept | hreplaced
        · have hnow := hkept moves List.prefix_rfl hearlier.length_lt
          have hsince : Unchanged generate moves (moves ++ [m]) r.file :=
            fun before q hbefore => hunchanged before q (hearlier.seen.trans hbefore)
          rcases lookup_step hcalls hsince hnow with hlast |
            ⟨k, g, revision, data', stamp, r', job, now, rfl, hfile, htype, hcall, hstore⟩
          · left
            intro point hpoint hlater
            rcases List.prefix_concat_iff.mp hpoint with rfl | hbefore
            · exact hlast
            · exact hkept point hbefore hlater
          · right
            exact replaced_of_store hearlier (hunchanged.of_le hle) hkept hcall hstore hfile htype
        · exact Or.inr (hreplaced.mono hle)

/-- A view that a call has returned was stored by a call. -/
theorem stored_of_ended (hcalls : CallsOnly moves) {g : Generation} {r : View}
    (hended : (run generate moves).calls[n]? = some ⟨g, .ended (.returned (.ok (some r)))⟩) :
    ∃ k data stored, Stored generate moves k r data stored := by
  have htraced := (accounted_run moves n _ hended).traced
  cases htraced with
  | ended _ hview =>
      obtain ⟨stage, seen, content, job, now, -, -, hturn, -, hfound, -⟩ := (hview r rfl).last
      obtain ⟨data, hkept⟩ := Workspace.kept_of_view? hfound
      obtain ⟨k, stored, hstored⟩ := stored_of_lookup (hcalls.of_le hturn) hkept
      exact ⟨k, data, stored, hstored.mono hturn⟩

theorem lasting_run (generate : P → Entry → Bytes → Except String Bytes) (moves : List (Move P)) :
    Lasting generate moves := by
  intro hcalls n g r hended
  obtain ⟨k, data, stored, hstored⟩ := stored_of_ended hcalls hended
  refine ⟨k, data, stored, hstored, ?_⟩
  intro seen hseen hlater hunchanged
  rcases (hstored.upto hseen hlater).lasts (hcalls.of_le hseen) hunchanged with hkept | hreplaced
  · left
    exact Workspace.viewData_of_lookup (hkept seen List.prefix_rfl hlater)
  · exact Or.inr hreplaced

end Studio

open Studio in
/-- A view that a call has returned is found with its data as long as the file is not updated,
unless another call, which had looked for a view before this one was stored, stores its own. So
it is in every world. -/
theorem lasting_views {P : Type} (generate : P → Entry → Bytes → Except String Bytes)
    (moves : List (Studio.Move P)) :
    Lasting generate moves ∧
    ∀ (s : Scenario) (w : World), Scenario.Leads s.start w →
      ∃ moves, w.studio = run Renderer.generate moves ∧ Lasting Renderer.generate moves ∧
        ∀ w', Scenario.Leads w w' →
          ∃ later, w'.studio = run Renderer.generate (moves ++ later) ∧
            Lasting Renderer.generate (moves ++ later) := by
  refine ⟨lasting_run generate moves, ?_⟩
  intro s w hleads
  exact hleads.studio_holds (lasting_run Renderer.generate)

namespace Studio

/-- One call comes to a view of a file, and then another file is added. -/
def undisturbed : List (Move Unit) :=
  [.register ⟨"copy", fun _ => .returned true, ()⟩, .request (.file "a.bin" none [1]),
    .call ⟨1⟩ "copy"] ++
  attempt 0 ++ [.turn 0 (.ok ()) 7, .request (.file "b.bin" none [2])]

end Studio

set_option maxRecDepth 4096 in
open Studio in
/-- The view is found still. -/
theorem lasting_views_undisturbed :
    CallsOnly undisturbed ∧
    (∃ data, (run copy undisturbed).workspace.viewData ⟨⟨1⟩, "copy", ⟨1⟩, 7⟩ = .ok data) ∧
    ∃ moves, (Scenario.start {}).studio = run Renderer.generate moves := by
  have hcalls : CallsOnly undisturbed := by
    intro file revision viewType data stamp
    simp [undisturbed, attempt]
  obtain ⟨hlasting, hworlds⟩ := lasting_views copy undisturbed
  have hended : (run copy undisturbed).calls[0]? =
      some ⟨⟨⟨1⟩, "copy", 1⟩, .ended (.returned (.ok (some ⟨⟨1⟩, "copy", ⟨1⟩, 7⟩)))⟩ := rfl
  obtain ⟨n, data, stored, hstored, hlasts⟩ := hlasting hcalls 0 _ _ hended
  have hunchanged : Unchanged copy stored undisturbed ⟨1⟩ := by
    intro before q _ hle
    have hmem : .request q ∈ undisturbed := hle.subset (by simp)
    rintro ⟨content, w, e, rfl, -⟩
    simp [undisturbed, attempt] at hmem
  have honly {k : Nat} {c : Generation.Call Unit} {seen : List (Studio.Move Unit)}
      (hcall : (run copy seen).calls[k]? = some c) (hle : seen <+: undisturbed) : k = 0 := by
    obtain ⟨c', hcall', -⟩ := call_onward hcall hle
    obtain ⟨hlt, -⟩ := Array.getElem?_eq_some_iff.mp hcall'
    have hsize : (run copy undisturbed).calls.size = 1 := rfl
    omega
  obtain ⟨moves, hmoves, -⟩ := hworlds {} _ .refl
  refine ⟨hcalls, ?_, moves, hmoves⟩
  rcases hlasts undisturbed List.prefix_rfl hstored.length_lt hunchanged with hfound | hreplaced
  · exact ⟨data, hfound⟩
  · obtain ⟨k, g, missed, stamp, data', later, hother, -, -, -, -, hcall, hrival, -⟩ := hreplaced
    obtain ⟨c, hfirst, -⟩ := hstored.ended
    exact absurd ((honly hcall hrival.seen).trans (honly hfirst List.prefix_rfl).symm) hother

namespace Studio

/-- The views that calls have returned. -/
def returned {P : Type} (s : Studio P) : List View :=
  s.calls.toList.filterMap fun c =>
    match c.stage with
    | .ended (.returned (.ok found)) => found
    | _ => none

end Studio

namespace Scenario

/-- Two tasks ask for the same view of a file. -/
def asksTwice : List Step :=
  [.feature (.generator "hex" .hex ⟨[], .done, none, .always true⟩),
    .workspace 0 (.addFile "a.bin" none [1]),
    .control (.all
      [.control (.spawn (some "other") [.feature (.view ⟨1⟩ "hex" (some "first"))]),
        .feature (.view ⟨1⟩ "hex" (some "second")),
        .control (.join "other")])]

/-- The world after that. -/
def askedTwice : World := ((asksTwice.mapM (runStep none)).run (start {})).2

end Scenario

/-- Both calls have returned a view, the file is as it was added, and yet the view of the first
call is unknown. -/
theorem replaced_view_unknown :
    Scenario.askedTwice.studio.returned = [⟨⟨1⟩, "hex", ⟨1⟩, 9⟩, ⟨⟨1⟩, "hex", ⟨1⟩, 11⟩] ∧
    Scenario.askedTwice.studio.workspace.snapshot ⟨1⟩ = .ok ⟨[1], ⟨1⟩⟩ ∧
    Scenario.askedTwice.studio.workspace.viewData ⟨⟨1⟩, "hex", ⟨1⟩, 9⟩ =
      .error (.unknownView ⟨1⟩ "hex") := by
  decide +kernel

end EventHub
