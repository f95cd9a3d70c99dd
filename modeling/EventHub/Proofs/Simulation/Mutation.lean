import EventHub.Proofs.Simulation.Fire
import EventHub.Proofs.Simulation.Step
import EventHub.Proofs.Workspace.Commit
import EventHub.Scenario

/-!
Mutations of a workspace. A mutation commits first and fires its event then, so
whether it leaves anything behind when it fails depends on which of the two failed:
a refusal of the workspace comes before the commit and leaves all as it was, and a
closed broker comes after it and takes nothing back.
-/

namespace EventHub

/-- The operations that change a workspace. -/
inductive Script.WorkspaceStep.IsMutation : Script.WorkspaceStep → Prop where
  | addDirectory (name : String) (parent : Option EntryId) : IsMutation (.addDirectory name parent)
  | addArchive (name : String) (parent : Option EntryId) : IsMutation (.addArchive name parent)
  | addFile (name : String) (parent : Option EntryId) (data : Bytes) :
      IsMutation (.addFile name parent data)
  | addClass (name : String) (parent : Option EntryId) (data : Bytes) :
      IsMutation (.addClass name parent data)
  | update (id : EntryId) (data : Bytes) : IsMutation (.update id data)
  | store (id : EntryId) (revision viewType : String) (data : Bytes) (label : Option String) :
      IsMutation (.store id revision viewType data label)

/-- What an operation that fires an event commits before it does. -/
def Script.WorkspaceStep.commit? : Script.WorkspaceStep → Option (Workspace → Workspace)
  | .addFile name parent data => some (·.withFile name parent data)
  | .addClass name parent data => some (·.withFile name parent data)
  | .update id data => some (·.withContent id data)
  | _ => none

namespace Simulation

open EventHub.Script

/-- One workspace was changed, and nothing else in the stores. -/
structure Changed (ws : Nat) (change : Workspace → Workspace) (w w' : World) : Prop where
  pool : w'.pool = w.pool
  workspaces : ∀ i, w'.workspaces[i]? = (w.workspaces[i]?).map fun h =>
    if i = ws then { h with workspace := change h.workspace } else h

namespace Changed

variable {ws : Nat} {change : Workspace → Workspace} {w w' w'' : World}

theorem after (hkept : Kept w w') (h : Changed ws change w' w'') : Changed ws change w w'' where
  pool := h.pool.trans hkept.pool
  workspaces := by
    intro i
    rw [h.workspaces, hkept.workspaces]

theorem before (h : Changed ws change w w') (hkept : Kept w' w'') : Changed ws change w w'' where
  pool := hkept.pool.trans h.pool
  workspaces := by
    intro i
    rw [hkept.workspaces, h.workspaces]

end Changed

/-- The failure that a closed broker makes of a mutation. -/
def brokerFailure : Failure := ⟨BrokerError.closed.label, BrokerError.closed.message⟩

/-- An answer that is no failure. -/
def IsAnswer (r : Script.Result) : Prop := ∀ failure, r ≠ .failed failure

/-- What a mutation has come to since the world was `w`. -/
inductive Attempt (ws : Nat) (s : WorkspaceStep) (f : Future .result) (w w' : World) : Prop
  | refused (failure : Failure) (hlabel : failure.label ≠ BrokerError.closed.label)
      (hfails : f.FailsClean (.failed failure) IsAnswer) (hkept : Kept w w')
  | committed (change : Workspace → Workspace) (hcommit : s.commit? = some change)
      (hfails : f.FailsClean (.failed brokerFailure) IsAnswer) (hchanged : Changed ws change w w')
  | answered (hsucceeds : f.Succeeds IsAnswer)

namespace Attempt

variable {ws : Nat} {s : WorkspaceStep} {f : Future .result} {w w' w'' : World}

theorem after (hkept : Kept w w') (h : Attempt ws s f w' w'') : Attempt ws s f w w'' := by
  cases h with
  | refused failure hlabel hfails hkept' =>
      exact .refused failure hlabel hfails (hkept.trans hkept')
  | committed change hcommit hfails hchanged =>
      exact .committed change hcommit hfails (hchanged.after hkept)
  | answered hsucceeds => exact .answered hsucceeds

/-- What the computation does then takes nothing away from that. -/
theorem poll (h : Attempt ws s f w w') (n : Nat) :
    Attempt ws s ((Sim.poll n f).run w').1 w ((Sim.poll n f).run w').2 := by
  cases h with
  | refused failure hlabel hfails hkept =>
      rcases hfails.poll n w' with ⟨hfails', hkept'⟩ | hsucceeds
      · exact .refused failure hlabel hfails' (hkept.trans hkept')
      · exact .answered hsucceeds
  | committed change hcommit hfails hchanged =>
      rcases hfails.poll n w' with ⟨hfails', hkept'⟩ | hsucceeds
      · exact .committed change hcommit hfails' (hchanged.before hkept')
      · exact .answered hsucceeds
  | answered hsucceeds => exact .answered (hsucceeds.poll n w')

end Attempt

namespace Sim

theorem spares_event (notice : Notice) : Spares (event notice) := fun _ => ⟨rfl, rfl⟩

theorem spares_stamp : Spares stamp := fun _ => ⟨rfl, rfl⟩

/-- Setting a workspace to what becomes of its state changes it by that. -/
theorem changed_setWorkspace {ws : Nat} {change : Workspace → Workspace} {state : Workspace}
    {w : World} (hstate : ∀ h, w.workspaces[ws]? = some h → state = change h.workspace) :
    Changed ws change w ((setWorkspace ws state).run w).2 := by
  rw [setWorkspace, run_modify]
  split
  · rename_i hnone
    constructor
    case pool => rfl
    case workspaces =>
      intro i
      by_cases hi : i = ws
      · subst hi
        rw [hnone]
        rfl
      · simp [hi]
  · rename_i h hsome
    constructor
    case pool => rfl
    case workspaces =>
      intro i
      rw [hstate h hsome]
      by_cases hi : i = ws
      · subst hi
        rw [getElem?_set_self hsome, hsome]
        simp
      · rw [getElem?_set_other (Ne.symm hi)]
        simp [hi]

/-- What a plain function makes of a result. -/
theorem resume_map {a b : Shape} (f : a.Value → b.Value) (v : a.Value) (w : World) :
    (resume (.map f) (.returned v)).run w = (.value (f v), w) := by
  rw [resume]
  rfl

theorem resume_classAdded_error (ws : Nat) (content : Bytes) (e : WorkspaceError) (w : World) :
    (resume (.classAdded ws content) (.returned (.error e))).run w = (.value (.error e), w) := by
  rw [resume]
  · rfl
  · intro _ hok
    cases hok

/-- The import that a class may start is nobody's answer. -/
theorem resume_classAdded_ok (ws : Nat) (content : Bytes) (e : Entry) (w : World) :
    ((resume (.classAdded ws content) (.returned (.ok e))).run w).1 = .value (.ok e) := by
  rw [resume]
  rfl

/-- Announcing an entry fails clean. -/
theorem announce_run (ws : Nat) (entry : Entry) (notice : Notice) (w : World) :
    Kept w ((addFile.announce ws entry notice).run w).2 ∧
      ((addFile.announce ws entry notice).run w).1.FailsClean (.error (.broker .closed)) IsOk := by
  refine ⟨spares_event notice w, ?_⟩
  apply (failsClean_fire _ _).bind
  · intro w
    exact resume_map _ _ w
  · rintro v w ⟨report, rfl⟩
    exact ⟨.ok entry, ⟨entry, rfl⟩, by rw [resume_map]⟩

end Sim

/-- A computation that shows the entry of one that fails clean fails clean. -/
theorem Future.FailsClean.showEntry {f : Future .entry} {e : WorkspaceError}
    (h : f.FailsClean (.error e) IsOk) :
    (Sim.showEntry f).FailsClean (.failed ⟨e.label, e.message⟩) IsAnswer := by
  apply h.bind
  · intro w
    exact Sim.resume_map _ _ w
  · rintro v w ⟨entry, rfl⟩
    have hanswer : IsAnswer (.entry entry) := by
      intro failure heq
      cases heq
    refine ⟨.entry entry, hanswer, ?_⟩
    rw [Sim.resume_map]
    rfl

theorem Future.FailsClean.classAdded {f : Future .entry} {e : WorkspaceError}
    (h : f.FailsClean (.error e) IsOk) (ws : Nat) (content : Bytes) :
    (Future.bind f (.classAdded ws content)).FailsClean (.error e)
      IsOk := by
  apply h.bind
  · intro w
    exact Sim.resume_classAdded_error ws content e w
  · rintro v w ⟨entry, rfl⟩
    exact ⟨.ok entry, ⟨entry, rfl⟩, Sim.resume_classAdded_ok ws content entry w⟩

/-- An entry was refused, or committed before anything else could fail. -/
def Committing (ws : Nat) (change : Workspace → Workspace) (f : Future .entry) (w w' : World) :
    Prop :=
  ∃ e, f.FailsClean (.error e) IsOk ∧
    ((e.IsRefusal ∧ Kept w w') ∨ (e = .broker .closed ∧ Changed ws change w w'))

namespace Committing

variable {ws : Nat} {change : Workspace → Workspace} {f : Future .entry} {w w' w'' : World}

theorem after (hkept : Kept w w') (h : Committing ws change f w' w'') :
    Committing ws change f w w'' := by
  obtain ⟨e, hfails, ⟨hrefusal, hkept'⟩ | ⟨he, hchanged⟩⟩ := h
  · exact ⟨e, hfails, Or.inl ⟨hrefusal, hkept.trans hkept'⟩⟩
  · exact ⟨e, hfails, Or.inr ⟨he, hchanged.after hkept⟩⟩

theorem classAdded (h : Committing ws change f w w') (content : Bytes) :
    Committing ws change (.bind f (.classAdded ws content)) w w' := by
  obtain ⟨e, hfails, hcases⟩ := h
  exact ⟨e, hfails.classAdded ws content, hcases⟩

theorem attempt (h : Committing ws change f w w') {s : WorkspaceStep}
    (hcommit : s.commit? = some change) : Attempt ws s (Sim.showEntry f) w w' := by
  obtain ⟨e, hfails, ⟨hrefusal, hkept⟩ | ⟨rfl, hchanged⟩⟩ := h
  · exact .refused _ hrefusal.label_ne hfails.showEntry hkept
  · exact .committed change hcommit hfails.showEntry hchanged

end Committing

namespace Sim

/-- A state that was committed is announced. -/
theorem committing_announce {ws : Nat} {change : Workspace → Workspace} {state : Workspace}
    {w : World} (hstate : ∀ h, w.workspaces[ws]? = some h → state = change h.workspace)
    (entry : Entry) (notice : Notice) :
    Committing ws change
      ((setWorkspace ws state >>= fun _ => addFile.announce ws entry notice).run w).1 w
      ((setWorkspace ws state >>= fun _ => addFile.announce ws entry notice).run w).2 := by
  obtain ⟨hkept, hfails⟩ := announce_run ws entry notice ((setWorkspace ws state).run w).2
  exact ⟨_, hfails, Or.inr ⟨rfl, (changed_setWorkspace hstate).before hkept⟩⟩

theorem addFile_run (ws : Nat) (name : String) (parent : Option EntryId) (data : Bytes)
    (w : World) : Committing ws (·.withFile name parent data)
      ((addFile ws name parent data).run w).1 w ((addFile ws name parent data).run w).2 := by
  obtain ⟨hworld, hread⟩ := workspace_run ws w
  simp only [addFile, run_bind, hworld]
  rcases ((workspace ws).run w).1.addFile_cases name parent data with
    ⟨e, he, hrefusal⟩ | ⟨entry, hentry⟩
  · rw [he]
    exact ⟨e, Future.failsClean_value _ _, Or.inl ⟨hrefusal, .refl w⟩⟩
  · rw [hentry]
    exact committing_announce (fun h hsome =>
      congrArg (·.withFile name parent data) (hread h hsome))
      entry (.added entry data)

theorem update_run (ws : Nat) (id : EntryId) (data : Bytes) (w : World) :
    Committing ws (·.withContent id data)
      ((update ws id data).run w).1 w ((update ws id data).run w).2 := by
  obtain ⟨hworld, hread⟩ := workspace_run ws w
  simp only [update, run_bind, hworld]
  rcases ((workspace ws).run w).1.update_cases id data with ⟨e, he, hrefusal⟩ | ⟨entry, hentry⟩
  · rw [he]
    exact ⟨e, Future.failsClean_value _ _, Or.inl ⟨hrefusal, .refl w⟩⟩
  · rw [hentry, run_bind]
    refine Committing.after (spares_writeAll _ w) (committing_announce ?_ entry _)
    exact fun h hsome => congrArg (·.withContent id data) (hread h hsome)

/-- Adding an entry without content fires nothing, and is done once it is committed. -/
theorem addDirectory_run (ws : Nat) (s : WorkspaceStep)
    {add : Workspace → Except WorkspaceError (Workspace × Entry)}
    (hadd : ∀ state e, add state = .error e → e.IsRefusal) (w : World) :
    Attempt ws s ((addDirectory ws add).run w).1 w ((addDirectory ws add).run w).2 := by
  simp only [addDirectory, run_bind, (workspace_run ws w).1]
  split
  · rename_i e he
    exact .refused _ (hadd _ e he).label_ne (Future.failsClean_value _ _) (.refl w)
  · exact .answered (Future.succeeds_value fun _ h => by cases h)

theorem store_run (ws : Nat) (id : EntryId) (revision viewType : String) (data : Bytes)
    (label : Option String) (w : World) :
    Attempt ws (.store id revision viewType data label)
      ((workspaceStep ws (.store id revision viewType data label)).run w).1 w
      ((workspaceStep ws (.store id revision viewType data label)).run w).2 := by
  have hget : (get : Sim World).run w = (w, w) := rfl
  have hread : ((workspace ws).run w).2 = w := (workspace_run ws w).1
  simp only [workspaceStep, run_bind, hget]
  rw [named.eq_def]
  split
  · refine .refused ⟨"bad_step", "no such revision"⟩ ?_ (Future.failsClean_value _ _) (.refl w)
    decide
  · rename_i revision _
    simp only [run_bind, hread]
    split
    · rename_i e he
      refine .refused _ (Workspace.store_refusal he).label_ne (Future.failsClean_value _ _) ?_
      exact (spares_writeAll _ w).trans (spares_stamp _)
    · exact .answered (Future.succeeds_value fun _ h => by cases h)

/-- A mutation is refused, has an answer, or has committed and asks its broker. -/
theorem mutation_run {ws : Nat} {s : WorkspaceStep} (hs : s.IsMutation) (w : World) :
    Attempt ws s ((workspaceStep ws s).run w).1 w ((workspaceStep ws s).run w).2 := by
  cases hs with
  | addDirectory name parent =>
      exact addDirectory_run ws _ (fun _ _ he => Workspace.insert_refusal he) w
  | addArchive name parent =>
      exact addDirectory_run ws _ (fun _ _ he => Workspace.insert_refusal he) w
  | addFile name parent data => exact (addFile_run ws name parent data w).attempt rfl
  | addClass name parent data =>
      exact ((addFile_run ws name parent data w).classAdded data).attempt rfl
  | update id data => exact (update_run ws id data w).attempt rfl
  | store id revision viewType data label => exact store_run ws id revision viewType data label w

end Sim

/-- A turn of a mutation either does not come to it, or makes the attempt. -/
theorem Prepared.attempt {context : Context} {ws : Nat} {s : WorkspaceStep} {f : Future .result}
    (h : Prepared context (.workspace ws s) f) (hs : s.IsMutation) (n : Nat) (w : World) :
    (Prepared context (.workspace ws s) ((Sim.poll n f).run w).1 ∧
        Kept w ((Sim.poll n f).run w).2) ∨
      Attempt ws s ((Sim.poll n f).run w).1 w ((Sim.poll n f).run w).2 := by
  rcases h.poll n w with hprepared | ⟨w', n', hkept, hrun⟩
  · exact Or.inl hprepared
  · have hattempt : Attempt ws s ((Sim.workspaceStep ws s).run w').1 w'
        ((Sim.workspaceStep ws s).run w').2 := Sim.mutation_run hs w'
    rw [hrun]
    exact Or.inr ((hattempt.poll n').after hkept)

/-- What a mutation came to at its end: it was refused and changed nothing, or it
failed because its broker is closed, and then one of its turns has made exactly its
commit. -/
theorem Attempt.ends {ws : Nat} {s : WorkspaceStep} {f : Future .result} {w w' : World}
    (h : Attempt ws s f w w') {turns : List (World × World)} {failure : Failure}
    (hends : Ends f turns (.returned (.failed failure))) :
    (failure.label ≠ BrokerError.closed.label ∧ Kept w w' ∧ ∀ turn ∈ turns, Kept turn.1 turn.2) ∨
      (failure = brokerFailure ∧ ∃ change, s.commit? = some change ∧ Changed ws change w w' ∧
        ∀ turn ∈ turns, Kept turn.1 turn.2) := by
  cases h with
  | refused failure' hlabel hfails hkept =>
      rcases hfails.ends hends with ⟨v, hv, ho⟩ | ⟨ho, hturns⟩
      · cases ho
        exact absurd rfl (hv failure)
      · cases ho
        exact Or.inl ⟨hlabel, hkept, hturns⟩
  | committed change hcommit hfails hchanged =>
      rcases hfails.ends hends with ⟨v, hv, ho⟩ | ⟨ho, hturns⟩
      · cases ho
        exact absurd rfl (hv failure)
      · cases ho
        exact Or.inr ⟨rfl, change, hcommit, hchanged, hturns⟩
  | answered hsucceeds =>
      obtain ⟨v, hv, ho⟩ := hsucceeds.ends hends
      cases ho
      exact absurd rfl (hv failure)

theorem Prepared.ends {context : Context} {ws : Nat} {s : WorkspaceStep} {f : Future .result}
    (h : Prepared context (.workspace ws s) f) (hs : s.IsMutation)
    {turns : List (World × World)} {failure : Failure}
    (hends : Ends f turns (.returned (.failed failure))) :
    (failure.label ≠ BrokerError.closed.label ∧ ∀ turn ∈ turns, Kept turn.1 turn.2) ∨
      (failure = brokerFailure ∧ ∃ change before w w' after, s.commit? = some change ∧
        turns = before ++ (w, w') :: after ∧ Changed ws change w w' ∧
        ∀ turn ∈ before ++ after, Kept turn.1 turn.2) := by
  generalize ho : Outcome.returned (Script.Result.failed failure) = o at hends
  induction hends with
  | @now f w w' o n hturn =>
      subst ho
      have hpoll := h.attempt hs n w
      rw [hturn] at hpoll
      rcases hpoll with ⟨hprepared, -⟩ | hattempt
      · cases hprepared
      · have hdone : Ends (Sim.answer (.failed failure)) [(w', w')]
            (.returned (.failed failure)) := .now 0 rfl
        rcases hattempt.ends hdone with ⟨hlabel, hkept, -⟩ |
          ⟨hfailure, change, hcommit, hchanged, -⟩
        · exact Or.inl ⟨hlabel, by simpa using hkept⟩
        · exact Or.inr ⟨hfailure, change, [], w, w', [], hcommit, rfl, hchanged, by simp⟩
  | @later f f' w w' turns o n hturn hrest ih =>
      subst ho
      have hpoll := h.attempt hs n w
      rw [hturn] at hpoll
      rcases hpoll with ⟨hprepared, hkept⟩ | hattempt
      · rcases ih hprepared rfl with ⟨hlabel, hturns⟩ |
          ⟨hfailure, change, before, v, v', after, hcommit, rfl, hchanged, hturns⟩
        · exact Or.inl ⟨hlabel, List.forall_mem_cons.mpr ⟨hkept, hturns⟩⟩
        · exact Or.inr ⟨hfailure, change, (w, w') :: before, v, v', after, hcommit, rfl,
            hchanged, List.forall_mem_cons.mpr ⟨hkept, hturns⟩⟩
      · rcases hattempt.ends hrest with ⟨hlabel, hkept, hturns⟩ |
          ⟨hfailure, change, hcommit, hchanged, hturns⟩
        · exact Or.inl ⟨hlabel, List.forall_mem_cons.mpr ⟨hkept, hturns⟩⟩
        · exact Or.inr ⟨hfailure, change, [], w, w', turns, hcommit, rfl, hchanged, hturns⟩

/-- A mutation of a workspace that fails has changed nothing, unless it is the event that
fails: then the broker is closed, and what was committed before the event was fired
stays, with no import for it. Each turn goes from any world, so the others may have
done anything between two of them. -/
theorem mutation_failure (context : Context) (ws : Nat) (s : WorkspaceStep) (hs : s.IsMutation)
    (turns : List (World × World)) (failure : Failure)
    (hends : Ends (.begin (.step context (.workspace ws s))) turns
      (.returned (.failed failure))) :
    (failure.label ≠ BrokerError.closed.label ∧ ∀ turn ∈ turns, Kept turn.1 turn.2) ∨
      (failure = brokerFailure ∧ ∃ change before w w' after, s.commit? = some change ∧
        turns = before ++ (w, w') :: after ∧ Changed ws change w w' ∧
        ∀ turn ∈ before ++ after, Kept turn.1 turn.2) :=
  Prepared.ends .step hs hends

/-- The system, once its broker was closed. -/
def closedHost : World := ((Scenario.runStep none (.broker 0 .shut)).run (Scenario.start {})).2

/-- Adds a file to the workspace of that system. -/
def addToClosedHost : Future .result :=
  .begin (.step {} (.workspace 0 (.addFile "a.bin" none [1])))

/-- The failure that a computation has ended with. -/
def Future.failure? : Future .result → Option Failure
  | .done (.returned (.failed failure)) => some failure
  | _ => none

/-- A computation that has failed after one turn. -/
theorem ends_of_failure? {n : Nat} {f : Future .result} {w : World} {failure : Failure}
    (h : ((Sim.poll n f).run w).1.failure? = some failure) :
    Ends f [(w, ((Sim.poll n f).run w).2)] (.returned (.failed failure)) := by
  refine .now n (Prod.ext ?_ rfl)
  generalize ((Sim.poll n f).run w).1 = g at h ⊢
  rw [Future.failure?.eq_def] at h
  split at h
  · cases h
    rfl
  · cases h

theorem addToClosedHost_ends :
    Ends addToClosedHost [(closedHost, ((Sim.poll 9 addToClosedHost).run closedHost).2)]
      (.returned (.failed brokerFailure)) := by
  have hfailure : ((Sim.poll 9 addToClosedHost).run closedHost).1.failure? =
      some brokerFailure := by decide +kernel
  exact ends_of_failure? hfailure

/-- There the file is added although the call fails. -/
theorem mutation_failure_closed_broker : ∃ turns, Ends addToClosedHost turns
    (.returned (.failed brokerFailure)) ∧
      ∃ change before w w' after,
        WorkspaceStep.commit? (.addFile "a.bin" none [1]) = some change ∧
        turns = before ++ (w, w') :: after ∧ Changed 0 change w w' ∧
        ∀ turn ∈ before ++ after, Kept turn.1 turn.2 := by
  have hcases := mutation_failure {} 0 _ (.addFile "a.bin" none [1]) _ _ addToClosedHost_ends
  rcases hcases with ⟨hlabel, -⟩ | ⟨-, hcommit⟩
  · exact absurd rfl hlabel
  · exact ⟨_, addToClosedHost_ends, hcommit⟩

/-- So a failure does not always leave a workspace as it was. -/
theorem failure_after_commit : ∃ failure w', Ends addToClosedHost [(closedHost, w')]
    (.returned (.failed failure)) ∧
      (closedHost.workspaces[0]?).map (·.workspace.lastId) = some 0 ∧
      (w'.workspaces[0]?).map (·.workspace.lastId) = some 1 ∧ ¬ Kept closedHost w' := by
  have hbefore : (closedHost.workspaces[0]?).map (·.workspace.lastId) = some 0 := by
    decide +kernel
  have hafter : (((Sim.poll 9 addToClosedHost).run closedHost).2.workspaces[0]?).map
      (·.workspace.lastId) = some 1 := by decide +kernel
  refine ⟨_, _, addToClosedHost_ends, hbefore, hafter, fun hkept => ?_⟩
  rw [hkept.workspaces, hbefore] at hafter
  cases hafter

end Simulation

end EventHub
