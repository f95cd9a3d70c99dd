import EventHub.Proofs.Panics.Dispatches
import EventHub.Proofs.Simulation.Approach
import EventHub.Proofs.Simulation.Mutation
import EventHub.Proofs.Stores.Studio
import EventHub.Proofs.Views.Freeze

/-!
The end of a workspace. The shutdown runs a listener that closes the workspace. A call that comes
to its workspace from then on, or that waited for it, is refused and leaves no trace, a question
has the answer that it had, and in every later world the workspace is as it was when it was
closed.
-/

namespace EventHub

open EventHub.Script EventHub.Simulation

/-- The answer of a step that asks a workspace in this state. -/
def Script.WorkspaceStep.answer? (w : World) (state : Workspace) :
    Script.WorkspaceStep → Option Script.Result
  | .find text => some (.ofWorkspace .entry (state.find text))
  | .lookUp id => some (.ofWorkspace .entry (state.entry id))
  | .path id => some (.ofWorkspace .text (state.path id))
  | .directory id => some (.ofWorkspace .entries (state.listing id))
  | .tree id => some (.ofWorkspace .tree (state.list id))
  | .content id => some (.ofWorkspace (fun c => .bytes c.data) (state.snapshot id))
  | .snapshot id _ => some (.ofWorkspace (fun c => .snapshot c.data c.revision) (state.snapshot id))
  | .view id viewType _ => some (.ofWorkspace Sim.showView (state.view? id viewType))
  | .viewData label viewType file => (w.viewLabels.lookup label).map fun r =>
      .ofWorkspace .bytes (state.viewData
        { r with viewType := viewType.getD r.viewType, file := file.getD r.file })
  | _ => none

/-- A step that stores a view names a revision that somebody has; without one it calls nobody. -/
def Script.WorkspaceStep.Resolves (w : World) : Script.WorkspaceStep → Prop
  | .store _ revision .. => (w.revisions.lookup revision).isSome = true
  | _ => True

/-- Every question has the answer that it had before the workspace was closed. -/
theorem Workspace.AnswersAs.answer? {state state' : Workspace} (h : state.AnswersAs state')
    (w : World) (s : Script.WorkspaceStep) : s.answer? w state' = s.answer? w state := by
  cases s <;> simp only [WorkspaceStep.answer?, h.find, h.entry, h.path, h.listing, h.list,
    h.snapshot, h.view?, h.viewData]

namespace Simulation

/-- What whoever asks a closed workspace for a change is told. -/
def closedFailure : Failure := ⟨WorkspaceError.closed.label, WorkspaceError.closed.message⟩

theorem Over.map {a b : Shape} {depth : Nat} {f : Future a} {v : a.Value}
    (h : Over depth f (.returned v)) (g : a.Value → b.Value) :
    Over (depth + 1) (f.map g) (.returned (g v)) := .bind h (Sim.resume_map g v)

theorem Quiet.resolves {w w' : World} (h : Quiet w w') (s : WorkspaceStep) :
    s.Resolves w' ↔ s.Resolves w := by
  cases s <;> simp only [WorkspaceStep.Resolves, h.revisions]

theorem Quiet.answer? {w w' : World} (h : Quiet w w') (state : Workspace) (s : WorkspaceStep) :
    s.answer? w' state = s.answer? w state := by
  cases s <;> simp only [WorkspaceStep.answer?, h.viewLabels]

theorem Quiet.found {w w' : World} (h : Quiet w w') (index : Nat) :
    w'.workspaces[index]? = w.workspaces[index]? := congrArg (·[index]?) h.kept.workspaces

namespace Sim

variable {context : Context} {index : Nat} {w : World} {hosted : Hosted} {s : WorkspaceStep}

theorem workspace_eq (hfound : w.workspaces[index]? = some hosted) :
    (workspace index).run w = (hosted.workspace, w) := by
  obtain ⟨hworld, hread⟩ := workspace_run index w
  exact Prod.ext (hread hosted hfound) hworld

/-! ### How steps and the listener come to the workspace -/

theorem needs_workspace (index : Nat) (s : WorkspaceStep) (w : World) :
    ∃ things, things ≤ 1 ∧ (needs (.workspace index s)).run w = (things, w) := by
  cases s with
  | store id revision viewType data label =>
      refine ⟨_, ?_, rfl⟩
      split <;> omega
  | viewData label viewType file =>
      refine ⟨_, ?_, rfl⟩
      split <;> omega
  | _ => exact ⟨1, Nat.le_refl 1, rfl⟩

/-- A step takes what it needs, and is carried out then. -/
theorem approaches_step (context : Context) (index : Nat) (s : WorkspaceStep) :
    Approaches (.perform context (.workspace index s))
      (.begin (.step context (.workspace index s))) := by
  refine .opens _ fun w => ?_
  have hwritten : Quiet w ((writeAll (intention (.workspace index s))).run w).2 :=
    ⟨spares_writeAll _ w, rfl, rfl, rfl⟩
  obtain ⟨things, hthings, hneeds⟩ :=
    needs_workspace index s ((writeAll (intention (.workspace index s))).run w).2
  rw [begin_step, begin_perform]
  simp only [step, run_bind, hneeds]
  split
  · exact ⟨_, hwritten, rfl, Or.inl rfl⟩
  · exact ⟨_, hwritten.trans ⟨spares_ticket _, rfl, rfl, rfl⟩, rfl,
      Or.inr ⟨things, _, hthings, rfl⟩⟩

theorem approaches_closeWorkspace (index : Nat) (e : Event) :
    Approaches (.react (.closeWorkspace index) e)
      (.begin (.listener (.closeWorkspace index) e)) :=
  .opens _ fun w => ⟨(ticket.run w).2, ⟨spares_ticket w, rfl, rfl, rfl⟩, rfl,
    Or.inr ⟨1, _, Nat.le_refl 1, by rw [begin]; rfl⟩⟩

/-! ### What a closed workspace does -/

/-- A step that asks for a change is refused. -/
theorem refused_step (hclosed : hosted.workspace.isClosed = true) (hs : s.IsMutation) :
    AtOnce (.perform context (.workspace index s))
      (fun w => w.workspaces[index]? = some hosted ∧ s.Resolves w) 2
      (.returned (.failed closedFailure)) Quiet := by
  have hrefuses := Workspace.refuses_of_closed hclosed
  have hadded (name : String) (parent : Option EntryId) (data : Bytes) {w : World}
      (hfound : w.workspaces[index]? = some hosted) :
      (addFile index name parent data).run w = (.value (.error .closed), w) := by
    simp only [addFile, run_bind, workspace_eq hfound, hrefuses.file]
    rfl
  have hdirectory {add : Workspace → Except WorkspaceError (Workspace × Entry)}
      (hadd : add hosted.workspace = .error .closed) {w : World}
      (hfound : w.workspaces[index]? = some hosted) :
      (addDirectory index add).run w = (answer (.failed closedFailure), w) := by
    simp only [addDirectory, run_bind, workspace_eq hfound, hadd]
    rfl
  suffices hrun : ∀ w, w.workspaces[index]? = some hosted → s.Resolves w →
      (∃ d, d ≤ 2 ∧ Over d ((workspaceStep index s).run w).1 (.returned (.failed closedFailure))) ∧
        Quiet w ((workspaceStep index s).run w).2 by
    refine ⟨?stays, ?ends, ?did⟩
    case stays =>
      rintro w w' hquiet ⟨hfound, hresolves⟩
      exact ⟨(hquiet.found index).trans hfound, (hquiet.resolves s).mpr hresolves⟩
    case ends =>
      rintro w ⟨hfound, hresolves⟩
      rw [begin_perform]
      exact (hrun w hfound hresolves).1
    case did =>
      rintro w ⟨hfound, hresolves⟩
      rw [begin_perform]
      exact (hrun w hfound hresolves).2
  intro w hfound hresolves
  cases hs with
  | addDirectory name parent =>
      rw [workspaceStep, hdirectory (hrefuses.directory name parent) hfound]
      exact ⟨⟨0, by omega, .done _⟩, .refl w⟩
  | addArchive name parent =>
      rw [workspaceStep, hdirectory (hrefuses.archive name parent) hfound]
      exact ⟨⟨0, by omega, .done _⟩, .refl w⟩
  | addFile name parent data =>
      simp only [workspaceStep, run_bind, hadded name parent data hfound]
      exact ⟨⟨1, by omega, Over.map (.done _) _⟩, .refl w⟩
  | addClass name parent data =>
      simp only [workspaceStep, run_bind, hadded name parent data hfound]
      exact ⟨⟨2, by omega, Over.map (.bind (.done _)
        (resume_classAdded_error index data .closed)) _⟩, .refl w⟩
  | update id data =>
      simp only [workspaceStep, update, run_bind, workspace_eq hfound, hrefuses.update]
      exact ⟨⟨1, by omega, Over.map (.done _) _⟩, .refl w⟩
  | store id revision viewType data label =>
      obtain ⟨r, hr⟩ := Option.isSome_iff_exists.mp hresolves
      have hget : (get : Sim World).run w = (w, w) := rfl
      simp only [workspaceStep, run_bind, hget, hr, named, workspace_eq hfound, hrefuses.store]
      exact ⟨⟨0, by omega, .done _⟩, ⟨rfl, rfl⟩, rfl, rfl, rfl⟩

/-- A step that asks something has the answer that the workspace gives. -/
theorem answered_step {r : Script.Result} :
    AtOnce (.perform context (.workspace index s))
      (fun w => w.workspaces[index]? = some hosted ∧ s.answer? w hosted.workspace = some r) 0
      (.returned r) Kept := by
  suffices hrun : ∀ w, w.workspaces[index]? = some hosted →
      s.answer? w hosted.workspace = some r →
      ((workspaceStep index s).run w).1 = .done (.returned r) ∧
        Kept w ((workspaceStep index s).run w).2 by
    refine ⟨?stays, ?ends, ?did⟩
    case stays =>
      rintro w w' hquiet ⟨hfound, hanswer⟩
      exact ⟨(hquiet.found index).trans hfound, (hquiet.answer? _ s).trans hanswer⟩
    case ends =>
      rintro w ⟨hfound, hanswer⟩
      rw [begin_perform]
      exact ⟨0, Nat.le_refl 0, (hrun w hfound hanswer).1 ▸ .done _⟩
    case did =>
      rintro w ⟨hfound, hanswer⟩
      rw [begin_perform]
      exact (hrun w hfound hanswer).2
  intro w hfound hanswer
  have hask {α : Type} (question : Workspace → Except WorkspaceError α) (display : α → Script.Result) :
      (ask index question display).run w =
        (answer (Result.ofWorkspace display (question hosted.workspace)), w) := by
    simp only [ask, run_bind, workspace_eq hfound]
    rfl
  have hget : (get : Sim World).run w = (w, w) := rfl
  -- The steps that ask differ in what else they do: two keep a label for what they were told.
  cases s with
  | snapshot id label =>
      cases hanswer
      simp only [workspaceStep, run_bind, workspace_eq hfound]
      split <;> exact ⟨rfl, rfl, rfl⟩
  | view id viewType label =>
      cases hanswer
      simp only [workspaceStep, run_bind, workspace_eq hfound]
      split
      · rename_i found _
        cases found <;> exact ⟨rfl, rfl, rfl⟩
      · exact ⟨rfl, rfl, rfl⟩
  | viewData label viewType file =>
      obtain ⟨found, hfound', rfl⟩ := Option.map_eq_some_iff.mp hanswer
      simp only [workspaceStep, run_bind, hget, hfound', named, hask]
      exact ⟨rfl, .refl w⟩
  | find | lookUp | path | directory | tree | content =>
      cases hanswer
      rw [workspaceStep, hask]
      exact ⟨rfl, .refl w⟩
  | _ => cases hanswer

/-- What the listener does closes the workspace, in one go. -/
theorem closing_react (index : Nat) (e : Event) :
    AtOnce (.react (.closeWorkspace index) e) (fun _ => True) 0 (.returned (.ok ()))
      (Changed index Workspace.close) := by
  have hbegin : begin (.react (.closeWorkspace index) e) = (workspace index >>= fun state =>
      setWorkspace index state.close >>= fun _ =>
        write (Workspace.note .info "workspace closed"
          [("files", toString state.files.length)]) >>= fun _ =>
        pure (.value (.ok ()))) := by
    rw [begin, react]
  refine ⟨fun _ _ _ h => h, fun w _ => ?_, fun w _ => ?_⟩
  · rw [hbegin]
    exact ⟨0, Nat.le_refl 0, .done _⟩
  · obtain ⟨hworld, hread⟩ := workspace_run index w
    rw [hbegin, run_bind, hworld]
    exact (changed_setWorkspace fun h hsome =>
      congrArg Workspace.close (hread h hsome)).before ⟨rfl, rfl⟩

end Sim

/-- One of these turns closes the workspace, and what else they do is quiet. -/
def Closing (index : Nat) (turns : List (World × World)) : Prop :=
  ∃ before w w' after, turns = before ++ (w, w') :: after ∧ Changed index Workspace.close w w' ∧
    ∀ turn ∈ before ++ after, Quiet turn.1 turn.2

/-- The listener of a workspace closes it, and its part of the dispatch is over with that. -/
theorem closing_listener {index : Nat} {sub : Subscription Action} {e : Event}
    (haction : sub.listener.action = .closeWorkspace index)
    (hmatch : Dispatch.mismatch? sub e = none) {turns : List (World × World)}
    {o : Outcome (Except ListenerError Unit)} (hruns : Runs (listenerCode sub e) turns o) :
    o = .returned (.ok ()) ∧ Closing index turns := by
  rw [listenerCode, hmatch, haction] at hruns
  obtain ⟨ho, before, w, v, w', after, hturns, hquiet, -, hclosed, hothers⟩ :=
    (Sim.closing_react index e).runs (Sim.approaches_closeWorkspace index e) hruns
      fun _ _ => trivial
  exact ⟨ho, before, w, w', after, hturns, hclosed.after hquiet.kept, hothers⟩

/-- One turn may be a run. -/
theorem runs_of_done {a : Shape} {f : Future a} {n : Nat} {w : World} {o : Outcome a.Value}
    (h : ((Sim.poll n f).run w).1 = .done o) : Runs f [(w, ((Sim.poll n f).run w).2)] o :=
  .last n (Prod.ext h rfl)

/-- What becomes of calls that come to this workspace, or to the state of it that was closed. A
call may have begun before, but it was not carried out yet. -/
structure Refusing (index : Nat) (hosted : Hosted) : Prop where
  /-- A call for a change fails, makes no event, submits no job and changes nothing. -/
  refused : ∀ context (q : WorkspaceStep) f turns o, q.IsMutation →
    Sim.Approaches (.perform context (.workspace index q)) f → Runs f turns o →
    (∀ turn ∈ turns, turn.1.workspaces[index]? = some hosted ∧ q.Resolves turn.1) →
    o = .returned (.failed closedFailure) ∧ ∀ turn ∈ turns, Quiet turn.1 turn.2
  /-- It fails in its next turn, if that can take something. -/
  refusedSoon : ∀ context (q : WorkspaceStep) f n w, q.IsMutation →
    Sim.Approaches (.perform context (.workspace index q)) f →
    w.workspaces[index]? = some hosted → q.Resolves w → 5 ≤ n → w.allowance ≠ some 0 →
    ((Sim.poll n f).run w).1 = .done (.returned (.failed closedFailure))
  /-- A question has the answer of the state that was closed. -/
  answered : ∀ context (q : WorkspaceStep) f turns o r,
    Sim.Approaches (.perform context (.workspace index q)) f → Runs f turns o →
    (∀ turn ∈ turns, turn.1.workspaces[index]? = some hosted ∧
      q.answer? turn.1 hosted.workspace = some r) →
    o = .returned r ∧ ∀ turn ∈ turns, Kept turn.1 turn.2
  answeredSoon : ∀ context (q : WorkspaceStep) f n w r,
    Sim.Approaches (.perform context (.workspace index q)) f →
    w.workspaces[index]? = some hosted → q.answer? w hosted.workspace = some r → 3 ≤ n →
    w.allowance ≠ some 0 → ((Sim.poll n f).run w).1 = .done (.returned r)

/-- What holds of every turn of a run that is split at one of them. -/
theorem forall_turns {turns before after : List (World × World)} {w w' : World}
    {p : World → World → Prop} (hturns : turns = before ++ (w, w') :: after) (h : p w w')
    (hothers : ∀ turn ∈ before ++ after, p turn.1 turn.2) : ∀ turn ∈ turns, p turn.1 turn.2 := by
  subst hturns
  intro turn hmem
  rcases List.mem_append.mp hmem with hbefore | hlater
  · exact hothers turn (List.mem_append_left _ hbefore)
  · rcases List.mem_cons.mp hlater with rfl | hafter
    · exact h
    · exact hothers turn (List.mem_append_right _ hafter)

theorem refusing_of_closed {hosted : Hosted} (index : Nat)
    (hclosed : hosted.workspace.isClosed = true) : Refusing index hosted := by
  constructor
  case refused =>
    intro context q f turns o hq hf hruns hthere
    obtain ⟨ho, before, w, v, w', after, hturns, hquiet, -, hdid, hothers⟩ :=
      (Sim.refused_step hclosed hq).runs hf hruns hthere
    exact ⟨ho, forall_turns hturns (hquiet.trans hdid) hothers⟩
  case refusedSoon =>
    intro context q f n w hq hf hfound hresolves hn hfree
    exact (Sim.refused_step hclosed hq).ends hf hn hfree ⟨hfound, hresolves⟩
  case answered =>
    intro context q f turns o r hf hruns hthere
    obtain ⟨ho, before, w, v, w', after, hturns, hquiet, -, hdid, hothers⟩ :=
      Sim.answered_step.runs hf hruns hthere
    exact ⟨ho, forall_turns hturns (hquiet.kept.trans hdid) fun turn hmem =>
      (hothers turn hmem).kept⟩
  case answeredSoon =>
    intro context q f n w r hf hfound hanswer hn hfree
    exact Sim.answered_step.ends hf hn hfree ⟨hfound, hanswer⟩

end Simulation

namespace Scenario

/-- A workspace that is frozen from this world on. -/
structure Frozen (index : Nat) (hosted : Hosted) (w : World) : Prop where
  stays : ∀ w', Leads w w' → w'.workspaces[index]? = some hosted
  calls : Refusing index hosted
  /-- Views are made for the first workspace. A call that is made from now on finds the view that
  is kept there, in its first turn, or comes to none. -/
  views : index = 0 → ∃ moves, w.studio = Studio.run Renderer.generate moves ∧
    ∀ w', Leads w w' → ∃ later, w'.studio = Studio.run Renderer.generate (moves ++ later) ∧
      ∀ before file viewType after, later = before ++ .call file viewType :: after →
        ∃ c, w'.viewCalls[(Studio.run Renderer.generate (moves ++ before)).calls.size]? = some c ∧
          Studio.Finds hosted.workspace file viewType (after.any (·.isTurn
            (Studio.run Renderer.generate (moves ++ before)).calls.size)) c

theorem Leads.frozen {s : Scenario} {w : World} (h : Leads s.start w) {index : Nat}
    {hosted : Hosted} (hfound : w.workspaces[index]? = some hosted)
    (hclosed : hosted.workspace.isClosed = true) : Frozen index hosted w := by
  have hstays (w' : World) (hleads : Leads w w') : w'.workspaces[index]? = some hosted := by
    obtain ⟨requests, hrun⟩ := h.workspace_onward hleads hfound
    rw [hrun, Workspace.run_of_closed hclosed]
  refine ⟨hstays, refusing_of_closed index hclosed, ?_⟩
  rintro rfl
  obtain ⟨moves, hmoves, -, honward⟩ := h.studio_holds (Studio.staysClosed_run Renderer.generate)
  refine ⟨moves, hmoves, ?_⟩
  intro w' hleads
  obtain ⟨later, hlater, hstays'⟩ := honward w' hleads
  refine ⟨later, hlater, ?_⟩
  rintro before file viewType after rfl
  have hthen : (Studio.run Renderer.generate moves).workspace = hosted.workspace := by
    rw [← hmoves]
    exact Stores.studio_workspace hfound
  have hnow : (Studio.run Renderer.generate (moves ++ before)).workspace = hosted.workspace := by
    rw [Studio.workspace_of_closed (List.prefix_append moves before) (hthen ▸ hclosed), hthen]
  obtain ⟨c, hcall, hfinds⟩ := hstays'.calls (moves ++ before) file viewType after
    (List.append_assoc ..).symm (hnow ▸ hclosed)
  have hlast : (Studio.run Renderer.generate
      (moves ++ (before ++ .call file viewType :: after))).workspace = hosted.workspace := by
    rw [← hlater]
    exact Stores.studio_workspace (hstays w' hleads)
  rw [hlast] at hfinds
  refine ⟨c, ?_, hfinds⟩
  rw [← hcall, ← hlater]
  rfl

end Scenario

/-- When the shutdown's listener has run, the workspace is closed and answers every question as
before; and a workspace that is closed stays as it is for good, in whatever order the calls of
others come. -/
theorem closed_workspace_frozen (index : Nat) :
    (∀ (sub : Subscription Action) e turns (o : Outcome (Except ListenerError Unit)),
      sub.listener.action = .closeWorkspace index →
      Dispatch.mismatch? sub e = none → Runs (listenerCode sub e) turns o →
      o = .returned (.ok ()) ∧ Closing index turns) ∧
    (∀ state : Workspace, state.AnswersAs state.close ∧ state.close.isClosed = true) ∧
    ∀ (s : Scenario) w hosted, Scenario.Leads s.start w → w.workspaces[index]? = some hosted →
      hosted.workspace.isClosed = true → Scenario.Frozen index hosted w :=
  ⟨fun _ _ _ _ haction hmatch hruns => closing_listener haction hmatch hruns,
    fun state => ⟨state.answersAs_close, rfl⟩,
    fun _ _ _ hleads hfound hclosed => hleads.frozen hfound hclosed⟩

namespace Scenario

/-- The system with one file, when the workspace was told of the shutdown. -/
def shutHost : World :=
  let registered := ((runStep none (.broker 0 (.register (.workspace 0) none))).run (start {})).2
  let added := ((runStep none (.workspace 0 (.addFile "a.bin" none [1]))).run registered).2
  ((runStep none (.broker 0 (.fire (.shutdown .requested)))).run added).2

/-- The listener that it was told by. -/
def shutHostListener : Subscription Action where
  service := { id := ⟨1⟩, name := "workspace" }
  kind := .applicationShutdown
  listener := ⟨.applicationShutdown, .closeWorkspace 0⟩

/-- A call for another file. -/
def addToShutHost : Future .result := .begin (.step {} (.workspace 0 (.addFile "b.bin" none [2])))

/-- A question for the file that there is. -/
def findInShutHost : Future .result := .begin (.step {} (.workspace 0 (.find "a.bin")))

end Scenario

open Scenario in
/-- The listener comes to its end, the workspace is frozen then, another file is refused although
nothing is wrong with it, and the file that was there is found. -/
theorem closed_workspace_frozen_shutHost :
    (∃ w', Runs (listenerCode shutHostListener ⟨0, .shutdown .requested⟩) [(start {}, w')]
      (.returned (.ok ())) ∧ Closing 0 [(start {}, w')]) ∧
    ∃ hosted, shutHost.workspaces[0]? = some hosted ∧ Frozen 0 hosted shutHost ∧
      (∃ w', Runs addToShutHost [(shutHost, w')] (.returned (.failed closedFailure)) ∧
        Quiet shutHost w') ∧
      ∃ w', Runs findInShutHost [(shutHost, w')]
        (.returned (.entry { id := ⟨1⟩, name := "a.bin" })) ∧ Kept shutHost w' := by
  obtain ⟨hlistener, -, hfrozen⟩ := closed_workspace_frozen 0
  have hcloses := (Sim.closing_react 0 ⟨0, .shutdown .requested⟩).ends
    (Sim.approaches_closeWorkspace 0 _) (Nat.le_refl 3) (w := start {}) (by decide) trivial
  have hruns : Runs (listenerCode shutHostListener ⟨0, .shutdown .requested⟩) [(start {}, _)]
      (.returned (.ok ())) := runs_of_done hcloses
  refine ⟨⟨_, hruns, (hlistener shutHostListener _ _ _ rfl rfl hruns).2⟩, ?_⟩
  have hclosed : (shutHost.workspaces[0]?).map (·.workspace.isClosed) = some true := by
    decide +kernel
  have hfinds : (shutHost.workspaces[0]?).map (·.workspace.find "a.bin" |>.toOption) =
      some (some { id := ⟨1⟩, name := "a.bin" }) := by decide +kernel
  have hfree : shutHost.allowance ≠ some 0 := by decide +kernel
  have hleads : Leads (start {}) shutHost := ((Leads.refl.runStep _ _).runStep _ _).runStep _ _
  generalize shutHost = w at hclosed hfinds hfree hleads ⊢
  obtain ⟨hosted, hfound, hclosed⟩ := Option.map_eq_some_iff.mp hclosed
  have hanswer : WorkspaceStep.answer? w hosted.workspace (.find "a.bin") =
      some (.entry { id := ⟨1⟩, name := "a.bin" }) := by
    rw [hfound] at hfinds
    have hfind : (hosted.workspace.find "a.bin").toOption = some { id := ⟨1⟩, name := "a.bin" } :=
      Option.some.inj hfinds
    rw [WorkspaceStep.answer?]
    cases hfound' : hosted.workspace.find "a.bin" with
    | error e => simp [hfound', Except.toOption] at hfind
    | ok e =>
        rw [hfound'] at hfind
        cases hfind
        rfl
  have hshut := hfrozen {} w hosted hleads hfound hclosed
  have hadd := Sim.approaches_step {} 0 (.addFile "b.bin" none [2])
  have hfind := Sim.approaches_step {} 0 (.find "a.bin")
  have hfailed := runs_of_done (hshut.calls.refusedSoon _ _ _ 5 w (.addFile ..) hadd hfound trivial
    (Nat.le_refl 5) hfree)
  have hanswered := runs_of_done (hshut.calls.answeredSoon _ _ _ 3 w _ hfind hfound hanswer
    (Nat.le_refl 3) hfree)
  refine ⟨hosted, hfound, hshut, ⟨_, hfailed, ?_⟩, ⟨_, hanswered, ?_⟩⟩
  · have hquiet := (hshut.calls.refused _ _ _ _ _ (.addFile ..) hadd hfailed
      (List.forall_mem_singleton.mpr ⟨hfound, trivial⟩)).2
    exact hquiet (w, _) (List.mem_singleton_self _)
  · have hkept := (hshut.calls.answered _ _ _ _ _ _ hfind hanswered
      (List.forall_mem_singleton.mpr ⟨hfound, hanswer⟩)).2
    exact hkept (w, _) (List.mem_singleton_self _)

end EventHub
