import EventHub.Proofs.Exports.Transfer
import EventHub.Proofs.Panics.Code
import EventHub.Proofs.Workspace.Identity

/-!
An export writes out one revision. It looks at the workspace in its first turn and never again, so
what its writer takes comes from what the workspace held then, whatever others make of it
afterwards. The steps that export run such an export without a break.
-/

namespace EventHub

namespace Workspace

/-- The view is still kept, with these data. -/
def StillKept (w : Workspace) (r : View) (data : Bytes) : Prop :=
  ∃ v, w.views.lookup (r.file, r.viewType) = some v ∧ v.view.stamp = r.stamp ∧ v.data = data

variable {w : Workspace} {r : View} {data : Bytes}

theorem StillKept.viewData (h : w.StillKept r data) : w.viewData r = .ok data := by
  obtain ⟨v, hfound, hstamp, rfl⟩ := h
  rw [Workspace.viewData, hfound]
  exact if_pos hstamp

theorem viewData_of_gone (h : ∀ data, ¬ w.StillKept r data) :
    w.viewData r = .error (.unknownView r.file r.viewType) := by
  cases hfound : w.views.lookup (r.file, r.viewType) with
  | none => exact viewData_of_none hfound
  | some v => exact viewData_of_other hfound fun hstamp => h v.data ⟨v, hfound, hstamp, rfl⟩

end Workspace

namespace Transfer

/-- The first turn of the export comes after these requests, and `rest` comes after that. -/
def ReadsAfter (moves : List Move) (before : List Workspace.Request) (rest : List Move) : Prop :=
  ∃ answer, moves = before.map .request ++ .turn answer :: rest

/-- The export stands where its writer has let it come with these data, in so many turns. -/
structure Writes (count : Option Nat) (data : Bytes) (turns : Nat) (t : Transfer) : Prop where
  taken : takenIn t.exchanges <+: data
  /-- Every write offers all that was not taken before, and nothing else. -/
  offered : Export.OffersRest data t.exchanges
  succeeds : ∀ result, t.outgoing.stage = .ended (.ok result) ↔
    result = count ∧ takenIn t.exchanges = data ∧ .flush (.ok ()) ∈ t.exchanges
  fails : ∀ e, t.outgoing.stage = .ended (.error e) ↔
    ∃ reason, e = .write reason ∧ ∃ x ∈ t.exchanges, x.failure? = some reason
  /-- A turn for each byte and one for the flush are enough. -/
  ends : data.length < turns → ∃ result, t.outgoing.stage = .ended result

/-- The export has ended with this refusal before it asked its writer for anything. -/
def Refused (refusal : WorkspaceError) (t : Transfer) : Prop :=
  t.outgoing.stage = .ended (.error refusal) ∧ t.exchanges = []

/-- How an export stands after these moves, by what the workspace held when it was read. -/
structure Consistent (w : Workspace) (source : Export.Source) (moves : List Move) : Prop where
  waits : (∃ before rest, ReadsAfter moves before rest) ∨
    (run w source moves).outgoing.stage = .reading ∧ (run w source moves).exchanges = []
  content : ∀ id before rest c, source = .file id → ReadsAfter moves before rest →
    (w.run before).snapshot id = .ok c →
    Writes (some c.data.length) c.data (rest.countP Move.isTurn) (run w source moves)
  missing : ∀ id before rest refusal, source = .file id → ReadsAfter moves before rest →
    (w.run before).snapshot id = .error refusal → Refused refusal (run w source moves)
  view : ∀ r before rest data, source = .view r → ReadsAfter moves before rest →
    (w.run before).StillKept r data →
    Writes none data (rest.countP Move.isTurn) (run w source moves)
  gone : ∀ r before rest, source = .view r → ReadsAfter moves before rest →
    (∀ data, ¬ (w.run before).StillKept r data) →
    Refused (.unknownView r.file r.viewType) (run w source moves)

/-! ### One export -/

variable {w : Workspace} {source : Export.Source} {moves rest : List Move}
  {before : List Workspace.Request}

theorem requests_or_readsAfter (moves : List Move) :
    (∃ before : List Workspace.Request, moves = before.map .request) ∨
      ∃ before rest, ReadsAfter moves before rest := by
  induction moves with
  | nil => exact Or.inl ⟨[], rfl⟩
  | cons m moves ih =>
      cases m with
      | turn answer => exact Or.inr ⟨[], moves, answer, rfl⟩
      | request q =>
          rcases ih with ⟨before, rfl⟩ | ⟨before, rest, answer, rfl⟩
          · exact Or.inl ⟨q :: before, rfl⟩
          · exact Or.inr ⟨q :: before, rest, answer, rfl⟩

/-- As long as only others have their way, an export waits. -/
theorem run_requests (w : Workspace) (source : Export.Source) (before : List Workspace.Request) :
    run w source (before.map .request) =
      { workspace := w.run before, outgoing := { source } } := by
  induction before using List.reverseRecOn with
  | nil => rfl
  | append_singleton before q ih =>
      rw [run] at ih ⊢
      rw [List.map_append, List.map_singleton, onward_concat, ih, Workspace.run_concat]
      rfl

theorem run_of_readsAfter (w : Workspace) (source : Export.Source)
    (h : ReadsAfter moves before rest) :
    ∃ answer, run w source moves =
      onward { workspace := w.run before,
               outgoing := Export.turn { source } (w.run before) answer } rest := by
  obtain ⟨answer, rfl⟩ := h
  refine ⟨answer, ?_⟩
  have hbefore := run_requests w source before
  rw [run] at hbefore ⊢
  rw [onward_append, hbefore]
  rfl

/-- Once an export has its data, it is its writer that decides how far it comes. -/
theorem writes_onward {t : Transfer} {count : Option Nat} {data : Bytes}
    (h : Export.Stands count data t.outgoing.stage t.exchanges)
    (hcount : t.outgoing.source.count data = count) (hnone : t.exchanges = [])
    (moves : List Move) : Writes count data (moves.countP Move.isTurn) (t.onward moves) := by
  have hstands := stands_onward h hcount moves
  refine ⟨hstands.takenIn_prefix, hstands.offersRest, hstands.ended_ok_iff,
    hstands.ended_error_iff, fun hturns => ?_⟩
  by_contra hgoing
  rw [not_exists] at hgoing
  have hlength := length_exchanges h hcount moves hgoing
  have hbound := hstands.length_le hgoing
  rw [hlength, hnone, List.length_nil] at hbound
  omega

theorem writes_of_data {data : Bytes} (h : ReadsAfter moves before rest)
    (hdata : source.data (w.run before) = .ok data) :
    Writes (source.count data) data (rest.countP Move.isTurn) (run w source moves) := by
  obtain ⟨answer, hrun⟩ := run_of_readsAfter w source h
  have hread : Export.turn { source } (w.run before) answer =
      { source, stage := .offering data data } := by
    simp only [Export.turn, hdata]
  have hfirst : Export.Stands (source.count data) data (.offering data data) [] :=
    .offering .nothing
  rw [hrun, hread]
  exact writes_onward (t := ⟨_, ⟨source, _⟩, []⟩) hfirst rfl rfl rest

theorem refused_of_error {refusal : WorkspaceError} (h : ReadsAfter moves before rest)
    (hdata : source.data (w.run before) = .error refusal) :
    Refused refusal (run w source moves) := by
  obtain ⟨answer, hrun⟩ := run_of_readsAfter w source h
  have hread : Export.turn { source } (w.run before) answer =
      { source, stage := .ended (.error refusal) } := by
    simp only [Export.turn, hdata]
  rw [hrun, hread]
  exact onward_of_ended rfl rest

theorem consistent (w : Workspace) (source : Export.Source) (moves : List Move) :
    Consistent w source moves := by
  constructor
  case waits =>
    rcases requests_or_readsAfter moves with ⟨before, rfl⟩ | hreads
    · rw [run_requests]
      exact Or.inr ⟨rfl, rfl⟩
    · exact Or.inl hreads
  case content =>
    rintro id before rest c rfl hreads hc
    exact writes_of_data hreads (by rw [Export.Source.data, hc]; rfl)
  case missing =>
    rintro id before rest refusal rfl hreads hc
    exact refused_of_error hreads (by rw [Export.Source.data, hc]; rfl)
  case view =>
    rintro r before rest data rfl hreads hkept
    have hdata : (Export.Source.view r).data (w.run before) = .ok data := hkept.viewData
    exact writes_of_data hreads hdata
  case gone =>
    rintro r before rest rfl hreads hgone
    have hdata : (Export.Source.view r).data (w.run before) =
        .error (.unknownView r.file r.viewType) := Workspace.viewData_of_gone hgone
    exact refused_of_error hreads hdata

end Transfer

/-! ### The steps that export -/

namespace Writer

/-- A writer holds what it held and what the write says it took. -/
theorem written_write (w : Writer) (data : Bytes) :
    (w.write data).1.written = w.written ++ (Exchange.write data (w.write data).2).taken := by
  simp only [write]
  split
  · split <;> exact (List.append_nil _).symm
  · rfl

theorem written_respond (w : Writer) (e : Export) :
    (w.respond e.stage).1.written =
      w.written ++ takenIn (e.exchange? (w.respond e.stage).2).toList := by
  obtain ⟨source, stage⟩ := e
  cases stage with
  | reading => exact (List.append_nil _).symm
  | writing data rest =>
      have hone (x : Exchange) : takenIn [x] = x.taken := List.flatMap_singleton _ x
      rw [Export.exchange?, Option.toList_some, hone]
      exact w.written_write rest
  | flushing data =>
      have hnone (answer : Except String Unit) : takenIn [.flush answer] = [] := rfl
      rw [Export.exchange?, Option.toList_some, hnone, List.append_nil]
      rfl
  | ended result => exact (List.append_nil _).symm

theorem finish_of_ended {state : Workspace} {w : Writer} {e : Export}
    {result : Except WorkspaceError (Option Nat)} (h : e.result? = some result) :
    w.finish state e = (w, result) := by
  rw [finish]
  split
  · rename_i other hother
    rw [Option.some.inj (h.symm.trans hother)]
  · rename_i hgoing
    cases hgoing.symm.trans h

theorem finish_of_going {state : Workspace} {w : Writer} {e : Export} (h : e.result? = none) :
    w.finish state e =
      (w.respond e.stage).1.finish state (e.turn state (w.respond e.stage).2) := by
  rw [finish]
  split
  · rename_i result hended
    cases hended.symm.trans h
  · rfl

/-- To let an export run to its end is to give it one turn after another. -/
theorem finish_eq_onward (state : Workspace) (w : Writer) (e : Export)
    (exchanges : List Exchange) :
    ∃ (answers : List (Except String Nat)) (more : List Exchange),
      let t := Transfer.onward ⟨state, e, exchanges⟩ (answers.map .turn)
      t.outgoing.stage = .ended (w.finish state e).2 ∧ t.exchanges = exchanges ++ more ∧
        (w.finish state e).1.written = w.written ++ takenIn more := by
  induction w, e using Writer.finish.induct state generalizing exchanges with
  | case1 w e result hresult =>
      rw [finish_of_ended hresult]
      exact ⟨[], [], Export.stage_of_result? hresult, (List.append_nil _).symm,
        (List.append_nil _).symm⟩
  | case2 w e hgoing ih =>
      rw [finish_of_going hgoing]
      obtain ⟨answers, more, hstage, hexchanges, hwritten⟩ :=
        ih (exchanges ++ (e.exchange? (w.respond e.stage).2).toList)
      refine ⟨(w.respond e.stage).2 :: answers,
        (e.exchange? (w.respond e.stage).2).toList ++ more, hstage, ?_, ?_⟩
      · rw [← List.append_assoc]
        exact hexchanges
      · rw [hwritten, written_respond, List.append_assoc, takenIn, takenIn, takenIn,
          ← List.flatMap_append]

end Writer

open Script Simulation

namespace Simulation

/-- Steps that export, with the workspace that they read, what they export and their writer. -/
inductive World.Exports (w : World) : Step → Nat → Export.Source → Writer → Prop where
  | file (index : Nat) (id : EntryId) (writer : Writer) :
      w.Exports (.workspace index (.exportFile id writer)) index (.file id) writer
  | view (label : String) (r : View) (writer : Writer)
      (known : w.viewLabels.lookup label = some r) :
      w.Exports (.feature (.exportView label writer)) 0 (.view r) writer

/-- The step is carried out at once, and shows what its writer holds and how the export ended. -/
theorem perform_export {w : World} {step : Step} {index : Nat} {source : Export.Source}
    {writer : Writer} (h : w.Exports step index source writer) (context : Context) :
    (Sim.perform context step).run w =
      (Sim.exported (w.workspaceAt index) source writer, w) := by
  cases h with
  | file index id writer =>
      rw [Sim.perform, Sim.workspaceStep, Sim.run_bind, Sim.workspace_at]
      rfl
  | view label r writer known =>
      have hget : (get : Sim World).run w = (w, w) := rfl
      rw [Sim.perform, Sim.featureStep, Sim.run_bind, hget]
      simp only [known, Sim.named]
      rw [Sim.run_bind, Sim.workspace_at]
      rfl

end Simulation

/-- Exports. Whatever others ask of the workspace between the turns of an export and however its
writer takes it, the writer has taken a beginning of what the workspace held when the export read
it, and the export ends well if and only if all of that was taken and flushed. -/
theorem exports_one_revision :
    (∀ (w : Workspace) (source : Export.Source) (moves : List Transfer.Move),
      Transfer.Consistent w source moves) ∧
    ∀ (w : World) (context : Context) (step : Step) (index : Nat) (source : Export.Source)
      (writer : Writer), w.Exports step index source writer →
      ∃ (answers : List (Except String Nat)) (result : Except WorkspaceError (Option Nat)),
        let t := Transfer.run (w.workspaceAt index) source (answers.map .turn)
        t.outgoing.stage = .ended result ∧
          (Sim.perform context step).run w =
            (Sim.answer (.exported (Sim.asFailure result)
              (writer.written ++ takenIn t.exchanges)), w) := by
  refine ⟨Transfer.consistent, ?_⟩
  intro w context step index source writer h
  obtain ⟨answers, more, hstage, hexchanges, hwritten⟩ :=
    writer.finish_eq_onward (w.workspaceAt index) { source } []
  refine ⟨answers, _, hstage, ?_⟩
  rw [perform_export h context, Sim.exported, Transfer.run, hexchanges, List.nil_append,
    ← hwritten]

namespace Transfer

/-- Between the first byte and the second, the file is given other content. -/
def overtaken : List Move :=
  [.turn (.ok 0), .turn (.ok 1), .request (.update ⟨1⟩ [9, 9]), .turn (.ok 1), .turn (.ok 1),
    .turn (.ok 0)]

end Transfer

open Transfer in
/-- A file of three bytes is written out as it was read, though it is overwritten after the first
byte. A writer that takes no more after that is left with this byte. Of a view that was never
stored nothing is written. A step that exports the file starts from the same workspace. -/
theorem exports_one_revision_overtaken :
    let w := Workspace.run {} [.file "a.bin" none [1, 2, 3]]
    let world : World := { Scenario.start {} with workspaces := #[{ broker := 0, workspace := w }] }
    let step : Step := .workspace 0 (.exportFile ⟨1⟩ { chunk := some 2 })
    let t := run w (.file ⟨1⟩) overtaken
    let stuck := run w (.file ⟨1⟩) [.turn (.ok 0), .turn (.ok 1), .turn (.ok 0)]
    t.workspace.snapshot ⟨1⟩ = .ok ⟨[9, 9], ⟨2⟩⟩ ∧
    t.outgoing.stage = .ended (.ok (some 3)) ∧ takenIn t.exchanges = [1, 2, 3] ∧
    stuck.outgoing.stage = .ended (.error (.write "write zero")) ∧
    takenIn stuck.exchanges = [1] ∧ takenIn stuck.exchanges <+: [1, 2, 3] ∧
    Refused (.unknownView ⟨1⟩ "text") (run w (.view ⟨⟨1⟩, "text", ⟨1⟩, 7⟩) overtaken) ∧
    world.Exports step 0 (.file ⟨1⟩) { chunk := some 2 } ∧
    ∃ (answers : List (Except String Nat)) (result : Except WorkspaceError (Option Nat)),
      (run w (.file ⟨1⟩) (answers.map .turn)).outgoing.stage = .ended result ∧
        (Sim.perform {} step).run world =
          (Sim.answer (.exported (Sim.asFailure result)
            (takenIn (run w (.file ⟨1⟩) (answers.map .turn)).exchanges)), world) := by
  intro w world step t stuck
  have hwritten : Writes (some 3) [1, 2, 3] 4 t :=
    (exports_one_revision.1 w (.file ⟨1⟩) overtaken).content ⟨1⟩ [] _ ⟨[1, 2, 3], ⟨1⟩⟩ rfl
      ⟨_, rfl⟩ rfl
  have hstuck : Writes (some 3) [1, 2, 3] 2 stuck :=
    (exports_one_revision.1 w (.file ⟨1⟩) _).content ⟨1⟩ [] [.turn (.ok 1), .turn (.ok 0)]
      ⟨[1, 2, 3], ⟨1⟩⟩ rfl ⟨.ok 0, rfl⟩ rfl
  have hgone : Refused (.unknownView ⟨1⟩ "text") (run w (.view ⟨⟨1⟩, "text", ⟨1⟩, 7⟩) overtaken) :=
    (exports_one_revision.1 w (.view ⟨⟨1⟩, "text", ⟨1⟩, 7⟩) overtaken).gone _ [] _ rfl ⟨_, rfl⟩
      fun data hkept => nomatch hkept
  have hstep : world.Exports step 0 (.file ⟨1⟩) { chunk := some 2 } := .file 0 ⟨1⟩ _
  have hflushed : t.outgoing.stage = .ended (.ok (some 3)) := rfl
  have hfull : Exchange.write [2, 3] (.ok 0) ∈ stuck.exchanges :=
    List.mem_append_right _ (List.mem_singleton_self _)
  exact ⟨rfl, hflushed, ((hwritten.succeeds _).mp hflushed).2.1,
    (hstuck.fails _).mpr ⟨_, rfl, _, hfull, rfl⟩, rfl, hstuck.taken, hgone, hstep,
    exports_one_revision.2 world {} step 0 _ _ hstep⟩

end EventHub
