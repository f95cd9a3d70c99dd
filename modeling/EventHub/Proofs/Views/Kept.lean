import EventHub.Proofs.Views.Trace

/-!
The views that a workspace keeps, if nobody else stores any: each was stored by the turn of a
call, so its data is what a generator has made of the file; and a call that comes to no view
has stored none.
-/

namespace EventHub.Studio

open Generation

variable {P : Type}

section

variable (generate : P → Entry → Bytes → Except String Bytes) (moves : List (Move P))

/-- In its turn after the moves `seen` the call has stored the view. -/
def Stored (n : Nat) (r : View) (data : Bytes) (seen : List (Move P)) : Prop :=
  ∃ g job now stamp, seen ++ [.turn n job now] <+: moves ∧
    (run generate seen).calls[n]? = some ⟨g, .keeping r.revision data⟩ ∧
    (run generate seen).workspace.store g.file r.revision g.viewType data stamp =
      .ok ((run generate (seen ++ [.turn n job now])).workspace, r)

/-- The data is what a generator that was registered for the type makes of the entry of the
file and of what the file held at the view's revision. -/
def Genuine (r : View) (data : Bytes) : Prop :=
  ∃ generator entry, .register generator ∈ moves ∧ generator.viewType = r.viewType ∧
    (run generate moves).workspace.entry r.file = .ok entry ∧
    ∀ seen content, seen <+: moves →
      (run generate seen).workspace.snapshot r.file = .ok content →
      content.revision = r.revision → generate generator.plugin entry content.data = .ok data

/-- Views are stored by calls only. -/
def CallsOnly : Prop :=
  ∀ file revision viewType data stamp, .request (.store file revision viewType data stamp) ∉ moves

end

variable {generate : P → Entry → Bytes → Except String Bytes} {moves later : List (Move P)}
  {n : Nat}

theorem CallsOnly.of_le (h : CallsOnly later) (hle : moves <+: later) : CallsOnly moves :=
  fun file revision viewType data stamp hmem =>
    h file revision viewType data stamp (hle.subset hmem)

theorem Stored.mono {r : View} {data : Bytes} {seen : List (Move P)}
    (h : Stored generate moves n r data seen) (hle : moves <+: later) :
    Stored generate later n r data seen := by
  obtain ⟨g, job, now, stamp, hturn, hstored⟩ := h
  exact ⟨g, job, now, stamp, hturn.trans hle, hstored⟩

theorem Stored.seen {r : View} {data : Bytes} {seen : List (Move P)}
    (h : Stored generate moves n r data seen) : seen <+: moves := by
  obtain ⟨g, job, now, stamp, hturn, -⟩ := h
  exact (List.prefix_append seen _).trans hturn

/-- Every view that is kept was stored by a call. -/
theorem stored_of_lookup (hcalls : CallsOnly moves) {file : EntryId} {viewType : String}
    {v : KeptView} (h : (run generate moves).workspace.views.lookup (file, viewType) = some v) :
    ∃ n seen, Stored generate moves n v.view v.data seen := by
  induction moves using List.reverseRecOn with
  | nil => cases h
  | append_singleton moves m ih =>
      have hle : moves <+: moves ++ [m] := List.prefix_append _ _
      have hbefore
          (hold : (run generate moves).workspace.views.lookup (file, viewType) = some v) :
          ∃ n seen, Stored generate (moves ++ [m]) n v.view v.data seen := by
        obtain ⟨n, seen, hstored⟩ := ih (hcalls.of_le hle) hold
        exact ⟨n, seen, hstored.mono hle⟩
      rcases workspace_cases generate (run generate moves) m with hsame | ⟨q, rfl, hq⟩ |
        ⟨k, g, revision, data, stamp, r, ⟨job, now, rfl⟩, hcall, hstore⟩
      · rw [run_concat, hsame] at h
        exact hbefore h
      · rw [run_concat, hq] at h
        rcases (run generate moves).workspace.lookup_view_after q file viewType with
          hsame | ⟨-, hnone⟩ | ⟨revision, data, stamp, r, rfl, -⟩
        · exact hbefore (hsame.symm.trans h)
        · cases hnone.symm.trans h
        · exact absurd (by simp) (hcalls file revision viewType data stamp)
      · rw [← run_concat] at hstore
        obtain ⟨-, -, -, hr, hview⟩ := Workspace.store_ok hstore
        rw [hview, Workspace.lookup_withView] at h
        split at h
        · cases h
          rw [hr] at hstore ⊢
          exact ⟨k, moves, g, job, now, stamp, List.prefix_rfl, hcall, hstore⟩
        · exact hbefore h

/-- What a call stores is genuine. -/
theorem Stored.genuine {r : View} {data : Bytes} {seen : List (Move P)}
    (h : Stored generate moves n r data seen) : Genuine generate moves r data := by
  have hle := h.seen
  obtain ⟨g, job, now, stamp, hturn, hcall, hstore⟩ := h
  obtain ⟨-, -, -, hr, -⟩ := Workspace.store_ok hstore
  have htraced := (accounted_run seen n _ hcall).traced
  generalize hrevision : r.revision = revision at htraced
  cases htraced with
  | keeping generator entry content _ missed taken hmissed hsource htaken hmade =>
      have hsource' := hsource.mono hle
      refine ⟨generator, entry, hsource'.registered, ?_, ?_, ?_⟩
      · rw [hr]
        exact hsource.viewType
      · rw [hr]
        exact hsource'.entry
      · intro point held hpoint hheld hsame
        have htakenAt := htaken.2
        rw [hr] at hheld
        rw [content_unique (htaken.seen.trans hle) hpoint htakenAt hheld (hsame.trans hrevision)]
        exact hmade

/-! ### What calls have come to stays -/

theorem ended_onward {c : Generation.Call P} (hcall : (run generate moves).calls[n]? = some c)
    (hended : c.stage.IsEnded) (hle : moves <+: later) :
    (run generate later).calls[n]? = some c := by
  refine keeps_onward (p := fun s => s.calls[n]? = some c) hle ?_ hcall
  intro s m _ hcall
  rcases call_cases generate m hcall with ⟨-, hsame⟩ | ⟨-, hmade⟩ | ⟨job, now, -, -, hturned⟩
  · exact hsame
  · rw [hmade, c.handOver_ended generate hended]
  · obtain ⟨outcome, houtcome⟩ := hended
    rw [hturned, (c.turned _ _ job now).ended houtcome]

/-- A call stays a call for the same view. -/
theorem call_onward {c : Generation.Call P} (hcall : (run generate moves).calls[n]? = some c)
    (hle : moves <+: later) :
    ∃ c', (run generate later).calls[n]? = some c' ∧
      c'.generation.file = c.generation.file ∧ c'.generation.viewType = c.generation.viewType := by
  let goesOn (s : Studio P) : Prop := ∃ c', s.calls[n]? = some c' ∧
    c'.generation.file = c.generation.file ∧ c'.generation.viewType = c.generation.viewType
  refine keeps_onward (p := goesOn) hle ?_ ⟨c, hcall, rfl, rfl⟩
  rintro s m - ⟨c', hcall', hfile, htype⟩
  rcases call_cases generate m hcall' with ⟨-, hsame⟩ | ⟨-, hmade⟩ | ⟨job, now, -, -, hturned⟩
  · exact ⟨c', hsame, hfile, htype⟩
  · have hrequest := c'.handOver_generation generate
    exact ⟨_, hmade, by rw [hrequest, hfile], by rw [hrequest, htype]⟩
  · obtain ⟨hfile', htype'⟩ := (c'.turned s.workspace s.views job now).request
    exact ⟨_, hturned, hfile'.trans hfile, htype'.trans htype⟩

/-- A call that has not come to a view has left the workspace as it was in each of its turns. -/
theorem idle_turns
    (hviewless : ∀ g r, (run generate moves).calls[n]? ≠
      some ⟨g, .ended (.returned (.ok (some r)))⟩)
    {seen : List (Move P)} {job : Except JobError Unit} {now : Nat}
    (hturn : seen ++ [.turn n job now] <+: moves) :
    (run generate (seen ++ [.turn n job now])).workspace = (run generate seen).workspace := by
  cases hcall : (run generate seen).calls[n]? with
  | none =>
      rw [run_concat]
      exact turned_of_none hcall job now
  | some c =>
      obtain ⟨hworkspace, hturned⟩ := call_turn generate hcall job now
      rw [← run_concat] at hworkspace hturned
      rw [hworkspace]
      rcases (c.turned (run generate seen).workspace (run generate seen).views job now).changed with
        hsame | ⟨r, hkept⟩
      · exact hsame
      · rw [hkept] at hturned
        exact absurd (ended_onward hturned ⟨_, rfl⟩ hturn) (hviewless _ r)

end EventHub.Studio
