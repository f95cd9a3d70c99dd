import EventHub.Proofs.Panics.Code

/-!
The ledger of the events that workspaces create. It is read off the run of a computation: when
a call to a workspace goes on by firing an event, that event is entered, with the workspace as
it is then. Whatever becomes of the firing, what was entered stays. So a ledger tells of every
workspace what its files have held, and its entries have increasing numbers.
-/

namespace EventHub.Simulation

open EventHub.Script

/-- The events that workspaces have created, the latest last, each with the number of its
workspace. -/
abbrev Ledger := List (Nat × Issue)

namespace Ledger

/-- The events of one workspace. -/
def of (ledger : Ledger) (index : Nat) : List Issue :=
  ledger.filterMap fun entry => if entry.1 = index then some entry.2 else none

/-- The ledger is complete for a world: its events tell of every workspace what its files have
held, and they are numbered in the order of their creation. -/
structure Covers (ledger : Ledger) (w : World) : Prop where
  sorted : ledger.Pairwise fun entry later => entry.2.event.seq < later.2.event.seq
  issued : ∀ entry ∈ ledger, entry.2.event.seq < w.nextSeq
  chronicles : ∀ index, (w.workspaceAt index).Chronicle (ledger.of index)

theorem of_append (first second : Ledger) (index : Nat) :
    (first ++ second).of index = first.of index ++ second.of index :=
  List.filterMap_append

end Ledger

/-- How a ledger that was complete goes on. -/
def Enters (w : World) (entries : Ledger) (w' : World) : Prop :=
  ∀ past : Ledger, past.Covers w → Ledger.Covers (past ++ entries) w'

/-- The event that a computation is about to fire before anything else. -/
def Future.firing? : {a : Shape} → Future a → Option Event
  | _, .begin (.fire _ event) => some event
  | _, .bind inner _ => inner.firing?
  | _, _ => none

/-- What is entered when a call to a workspace has come to this. -/
def World.entriesOf {a : Shape} (w : World) (index : Nat) (begun : Future a × World) : Ledger :=
  match w.workspaces[index]?, begun.1.firing? with
  | some _, some event => [(index, ⟨event, begun.2.workspaceAt index⟩)]
  | _, _ => []

/-- What is entered as a computation begins in this world. -/
def Begin.entries {a : Shape} (start : Begin a) (w : World) : Ledger :=
  match start with
  | .perform _ (.workspace index _) => w.entriesOf index ((Sim.begin start).run w)
  | _ => []

namespace Sim

/-- What is entered while one thing is done after another. -/
def eachEntries {α β : Type} (m : α → Sim β) (entries : α → World → Ledger) :
    List α → World → Ledger
  | [], _ => []
  | v :: rest, w => entries v w ++ eachEntries m entries rest ((m v).run w).2

/-- What is entered while a computation goes on as far as possible, clause by clause as in
`poll`. -/
def pollEntries : Nat → {a : Shape} → Future a → World → Ledger
  | 0, _, _, _ => []
  | _ + 1, _, .done _, _ => []
  | n + 1, _, .begin start, w =>
    let (f, v) := (begin start).run w
    start.entries w ++ pollEntries n f v
  | n + 1, _, .wait c, w =>
    match (check c).run w with
    | (.pending _, _) => []
    | (.next f, v) => pollEntries n f v
  | n + 1, _, .bind inner frame, w =>
    pollEntries n inner w ++
      match (poll n inner).run w with
      | (.done outcome, v) =>
        let (f, u) := (resume frame outcome).run v
        pollEntries n f u
      | _ => []
  | n + 1, _, .within _ inner, w => pollEntries n inner w
  | n + 1, _, .followed first others, w =>
    pollEntries n first w ++
      match (poll n first).run w with
      | (.done (.returned r), v) =>
        pollEntries n (Future.map (b := .results) others fun list => r :: list) v
      | _ => []
  | n + 1, _, .raceClose broker context steps, w =>
    let start (s : Step) : Sim (Future .result) := poll n (.begin (.step context s))
    let (started, v) := (steps.mapM start).run w
    eachEntries start (fun s => pollEntries n (.begin (.step context s))) steps w ++
      pollEntries n (started.foldr Future.followed (.value []))
        ((onBroker broker fun b => (b.close, ())).run v).2
  | n + 1, _, .abandon _ _ _ inner, w => pollEntries n inner w

end Sim

/-- What is entered while a task goes on. -/
def Running.entries (w : World) : Running → Ledger
  | .unit f => Sim.pollEntries Sim.pollFuel f w
  | .job _ f => Sim.pollEntries Sim.pollFuel f w
  | .blocking _ f => Sim.pollEntries Sim.pollFuel f w
  | .script _ f => Sim.pollEntries Sim.pollFuel f w
  | .main f => Sim.pollEntries Sim.pollFuel f w
  | .settling f => Sim.pollEntries Sim.pollFuel f w
  | .finished => []

variable {a : Shape} {w w' w'' : World} {entries entries' : Ledger}

/-! ### What worlds and their ledgers keep -/

theorem World.entriesOf_eq_nil {index : Nat} {begun : Future a × World}
    (h : begun.1.firing? = none) : w.entriesOf index begun = [] := by
  rw [entriesOf, h]
  cases w.workspaces[index]? <;> rfl

theorem Ledger.Covers.silent (h : entries.Covers w) (hsilent : Silent w w') :
    entries.Covers w' where
  sorted := h.sorted
  issued entry hentry := Nat.lt_of_lt_of_le (h.issued entry hentry) hsilent.nextSeq
  chronicles index := (h.chronicles index).keeps (hsilent.workspaces index)

namespace Enters

theorem of_silent (h : Silent w w') : Enters w [] w' := by
  intro past hpast
  rw [List.append_nil]
  exact hpast.silent h

theorem trans (h : Enters w entries w') (h' : Enters w' entries' w'') :
    Enters w (entries ++ entries') w'' := by
  intro past hpast
  rw [← List.append_assoc]
  exact h' _ (h past hpast)

theorem then_silent (h : Enters w entries w') (h' : Silent w' w'') : Enters w entries w'' :=
  fun past hpast => (h past hpast).silent h'

theorem after_silent (h : Silent w w') (h' : Enters w' entries w'') : Enters w entries w'' :=
  fun past hpast => h' past (hpast.silent h)

/-- A workspace commits a change and creates its event in one go. -/
theorem commit {index : Nat} {hosted : Hosted} {i : Issue}
    (hfound : w.workspaces[index]? = some hosted) (hseq : i.event.seq = w.nextSeq)
    (hchronicle : ∀ issues, hosted.workspace.Chronicle issues → i.state.Chronicle (issues ++ [i])) :
    Enters w [(index, i)]
      { w with
        workspaces := w.workspaces.set! index { hosted with workspace := i.state }
        nextSeq := w.nextSeq + 1 } := by
  intro past hpast
  have hstate (other : Nat) := World.workspaceAt_set hfound i.state other
  refine ⟨?sorted, ?issued, ?chronicles⟩
  case sorted =>
    refine List.pairwise_append.mpr ⟨hpast.sorted, List.pairwise_singleton _ _, ?_⟩
    intro entry hentry later hlater
    obtain rfl := List.mem_singleton.mp hlater
    exact Nat.lt_of_lt_of_eq (hpast.issued entry hentry) hseq.symm
  case issued =>
    intro entry hentry
    rcases List.mem_append.mp hentry with hold | hnew
    · exact Nat.lt_succ_of_lt (hpast.issued entry hold)
    · obtain rfl := List.mem_singleton.mp hnew
      exact Nat.lt_succ_of_le (Nat.le_of_eq hseq)
  case chronicles =>
    intro other
    have hother : World.workspaceAt { w with
        workspaces := w.workspaces.set! index { hosted with workspace := i.state }
        nextSeq := w.nextSeq + 1 } other = if other = index then i.state else w.workspaceAt other :=
      hstate other
    rw [hother, Ledger.of_append]
    by_cases hindex : other = index
    · subst hindex
      have hone : Ledger.of [(other, i)] other = [i] := by simp [Ledger.of]
      rw [if_pos rfl, hone]
      have hbefore := hpast.chronicles other
      rw [World.workspaceAt_found hfound] at hbefore
      exact hchronicle _ hbefore
    · have hnone : Ledger.of [(index, i)] other = [] := by simp [Ledger.of, Ne.symm hindex]
      rw [if_neg hindex, hnone, List.append_nil]
      exact hpast.chronicles other

end Enters

/-- Code has run: it left alone what is for the schedule, and the ledger goes on like this. -/
structure Records (w : World) (entries : Ledger) (w' : World) : Prop extends Untouched w w' where
  enters : Enters w entries w'

namespace Records

theorem of_uneventful (h : Uneventful w w') : Records w [] w' :=
  ⟨h.toUntouched, .of_silent h.toSilent⟩

theorem refl (w : World) : Records w [] w := .of_uneventful (.refl w)

theorem trans (h : Records w entries w') (h' : Records w' entries' w'') :
    Records w (entries ++ entries') w'' :=
  ⟨h.toUntouched.trans h'.toUntouched, h.enters.trans h'.enters⟩

theorem then_uneventful (h : Records w entries w') (h' : Uneventful w' w'') :
    Records w entries w'' :=
  ⟨h.toUntouched.trans h'.toUntouched, h.enters.then_silent h'.toSilent⟩

theorem after_uneventful (h : Uneventful w w') (h' : Records w' entries w'') :
    Records w entries w'' :=
  ⟨h.toUntouched.trans h'.toUntouched, .after_silent h.toSilent h'.enters⟩

end Records

namespace Sim

/-! ### Calls to a workspace -/

variable {ws : Nat}

/-- The event is created at once, with the next number. -/
theorem announce_fires (ws : Nat) (entry : Entry) (notice : Notice) (w : World) :
    ((addFile.announce ws entry notice).run w).1.firing? = some ⟨w.nextSeq, notice⟩ ∧
      ((addFile.announce ws entry notice).run w).2 = { w with nextSeq := w.nextSeq + 1 } :=
  ⟨rfl, rfl⟩

/-- What a workspace commits is entered with the event that tells it. -/
theorem records_commit {state : Workspace} {entry : Entry} {notice : Notice}
    (hchronicle : ∀ issues seq, (w.workspaceAt ws).Chronicle issues →
      state.Chronicle (issues ++ [⟨⟨seq, notice⟩, state⟩])) :
    Records w (w.entriesOf ws
        ((setWorkspace ws state >>= fun _ => addFile.announce ws entry notice).run w))
      ((setWorkspace ws state >>= fun _ => addFile.announce ws entry notice).run w).2 := by
  rw [run_bind]
  cases hfound : w.workspaces[ws]? with
  | none =>
      have hset : ((setWorkspace ws state).run w).2 = w := by
        rw [setWorkspace, run_modify]
        simp only [hfound]
      rw [hset, World.entriesOf, hfound]
      exact .of_uneventful (leaves_announce ws entry notice w)
  | some hosted =>
      let v : World :=
        { w with
          workspaces := w.workspaces.set! ws { hosted with workspace := state }
          nextSeq := w.nextSeq + 1 }
      have hset : ((setWorkspace ws state).run w).2 = { v with nextSeq := w.nextSeq } := by
        rw [setWorkspace, run_modify]
        simp only [hfound]
        rfl
      have hstate : v.workspaceAt ws = state := by
        have hat := World.workspaceAt_set hfound state ws
        rw [if_pos rfl] at hat
        exact hat
      rw [World.workspaceAt_found hfound] at hchronicle
      have hentered : Enters w [(ws, ⟨⟨w.nextSeq, notice⟩, v.workspaceAt ws⟩)] v := by
        rw [hstate]
        exact .commit (i := ⟨⟨w.nextSeq, notice⟩, state⟩) hfound rfl
          fun issues => hchronicle issues w.nextSeq
      obtain ⟨hfiring, hrun⟩ := announce_fires ws entry notice { v with nextSeq := w.nextSeq }
      rw [hset, World.entriesOf, hfound, hfiring, hrun]
      exact ⟨⟨⟨rfl, fun _ t ht => ⟨t, ht, rfl⟩⟩, rfl⟩, hentered⟩

theorem records_addFile (name : String) (parent : Option EntryId) (data : Bytes) (w : World) :
    Records w (w.entriesOf ws ((addFile ws name parent data).run w))
      ((addFile ws name parent data).run w).2 := by
  rw [addFile, run_bind, workspace_at]
  dsimp only
  cases hadd : (w.workspaceAt ws).addFile name parent data with
  | error e =>
      rw [World.entriesOf_eq_nil rfl]
      exact .refl w
  | ok added =>
      obtain ⟨state, entry⟩ := added
      exact records_commit fun issues seq hpast => hpast.addFile hadd

theorem records_update (id : EntryId) (data : Bytes) (w : World) :
    Records w (w.entriesOf ws ((update ws id data).run w)) ((update ws id data).run w).2 := by
  rw [update, run_bind, workspace_at]
  dsimp only
  cases hupdate : (w.workspaceAt ws).update id data with
  | error e =>
      rw [World.entriesOf_eq_nil rfl]
      exact .refl w
  | ok updated =>
      obtain ⟨state, entry⟩ := updated
      let v := ((writeAll ((w.workspaceAt ws).updateRecords entry data)).run w).2
      have hwritten : Uneventful w v := leaves_writeAll _ w
      have hcommit : Records v (v.entriesOf ws ((setWorkspace ws state >>= fun _ =>
          addFile.announce ws entry (.updated entry data)).run v)) _ :=
        records_commit fun issues seq hpast => hpast.update hupdate
      exact .after_uneventful hwritten hcommit

theorem firing?_named {α : Type} {found : Option α} {missing : Script.Result}
    {go : α → Sim (Future .result)} (hgo : ∀ v w, ((go v).run w).1.firing? = none) {w : World} :
    ((named found missing go).run w).1.firing? = none := by
  cases found with
  | none => rfl
  | some v => exact hgo v w

/-- Nothing else that a workspace is asked for has an event. -/
theorem firing?_workspaceStep {context : Context} {s : WorkspaceStep}
    (hs : ¬ (Begin.perform context (.workspace ws s)).WritesFile) (w : World) :
    ((workspaceStep ws s).run w).1.firing? = none := by
  cases s with
  | addFile | addClass | update => exact absurd trivial hs
  | isClosed | find | lookUp | path | directory | tree | content | exportFile => rfl
  | addDirectory name parent | addArchive name parent =>
      simp only [workspaceStep, addDirectory, run_bind, workspace_at]
      split <;> rfl
  | snapshot id label | view id viewType label =>
      simp only [workspaceStep, run_bind, workspace_at]
      split <;> rfl
  | store id revision viewType data label =>
      refine firing?_named fun revision w => ?_
      rw [run_bind, workspace_at, run_bind, run_bind]
      split <;> rfl
  | viewData label viewType file => exact firing?_named fun r w => rfl

theorem records_workspaceStep (context : Context) (s : WorkspaceStep) (w : World) :
    Records w (w.entriesOf ws ((workspaceStep ws s).run w)) ((workspaceStep ws s).run w).2 := by
  by_cases hs : (Begin.perform context (.workspace ws s)).WritesFile
  · cases s with
    | addFile name parent data => exact records_addFile name parent data w
    | addClass name parent data => exact records_addFile name parent data w
    | update id data => exact records_update id data w
    | _ => exact False.elim hs
  · rw [World.entriesOf_eq_nil (firing?_workspaceStep hs w)]
    exact .of_uneventful (leaves_workspaceStep context ws hs w)

/-- What is entered as a computation begins is what its workspace commits. -/
theorem records_begin (start : Begin a) (w : World) :
    Records w (start.entries w) ((begin start).run w).2 := by
  cases start with
  | perform context s =>
      cases s with
      | workspace ws s => exact records_workspaceStep context s w
      | _ => exact .of_uneventful (leaves_begin id w)
  | _ => exact .of_uneventful (leaves_begin id w)

/-! ### Turns -/

theorem records_mapM {α β : Type} {m : α → Sim β} {entries : α → World → Ledger}
    (hm : ∀ v w, Records w (entries v w) ((m v).run w).2) (list : List α) (w : World) :
    Records w (eachEntries m entries list w) ((list.mapM m).run w).2 := by
  induction list generalizing w with
  | nil => exact .refl w
  | cons v rest ih =>
      rw [List.mapM_cons]
      exact (hm v w).trans (ih _)

/-- Whatever a computation comes to, the ledger has what was created on the way. -/
theorem records_poll (n : Nat) (f : Future a) (w : World) :
    Records w (pollEntries n f w) ((poll n f).run w).2 := by
  induction n generalizing a w with
  | zero => exact .refl w
  | succ n ih =>
      cases f with
      | done o => exact .refl w
      | begin start =>
          rw [poll, pollEntries, run_bind]
          exact (records_begin start w).trans (ih _ _)
      | wait c =>
          have hlooked := leaves_check c w
          rw [poll, pollEntries, run_bind]
          generalize (check c).run w = looked at hlooked
          obtain ⟨looked, v⟩ := looked
          cases looked with
          | pending c' => exact .of_uneventful hlooked
          | next f => exact .after_uneventful hlooked (ih f v)
      | bind inner frame =>
          have hinner := ih inner w
          rw [poll, pollEntries, run_bind]
          generalize (poll n inner).run w = polled at hinner
          obtain ⟨inner', v⟩ := polled
          refine hinner.trans ?_
          cases inner' with
          | done o => exact .after_uneventful (leaves_resume frame o v) (ih _ _)
          | _ => exact .refl v
      | within alarm inner =>
          have hinner := ih inner w
          have hspent : isSpent.run w = (decide (w.allowance = some 0), w) := rfl
          rw [poll, pollEntries, run_bind, hspent, run_bind]
          generalize (poll n inner).run w = polled at hinner
          obtain ⟨inner', v⟩ := polled
          refine hinner.then_uneventful ?_
          refine (show Leaves _ from ?_) v
          grind
      | followed first others =>
          have hfirst := ih first w
          rw [poll, pollEntries, run_bind]
          generalize (poll n first).run w = polled at hfirst
          obtain ⟨first', v⟩ := polled
          refine hfirst.trans ?_
          cases first' with
          | done o =>
              cases o with
              | returned r => exact ih _ v
              | panicked payload => exact .of_uneventful (leaves_drop others v)
          | _ => exact .refl v
      | raceClose broker context steps =>
          have hstarted := records_mapM (fun s => ih (.begin (.step context s))) steps w
          rw [poll, pollEntries, run_bind, run_bind]
          generalize (steps.mapM fun s => poll n (.begin (.step context s))).run w = started
            at hstarted
          exact hstarted.trans (.after_uneventful (leaves_onBroker broker _ _) (ih _ _))
      | abandon broker alarm fill inner =>
          have hinner := ih inner w
          rw [poll, pollEntries, run_bind]
          generalize (poll n inner).run w = polled at hinner
          obtain ⟨inner', v⟩ := polled
          refine hinner.then_uneventful ?_
          refine (show Leaves _ from ?_) v
          grind

/-- Who has only waited for an alarm does nothing else. -/
theorem check_alarm_next {alarm : Alarm} {f : Future .unit} {w : World}
    (h : ((check (.alarm alarm)).run w).1 = .next f) : f = .value () := by
  have hlook {v : World} {p : Polled .unit}
      (hp : ((taken (.alarm alarm) p).run v).1 = .next f) : p = .next f := by
    cases p with
    | next g => exact hp
    | pending c =>
        rw [taken] at hp
        split at hp
        · rw [run_bind, run_bind] at hp
          split at hp <;> cases hp
        · cases hp
  rw [check, take, run_bind] at h
  split at h
  · cases h
  · rw [run_bind] at h
    have hnext := hlook h
    rw [run_bind] at hnext
    split at hnext <;> cases hnext
    rfl

/-- Who only waits for an alarm leaves everything as it is. -/
theorem leaves_alarmWait (n : Nat) (alarm : Alarm) : Leaves (poll n (.wait (.alarm alarm))) := by
  intro w
  cases n with
  | zero => exact .refl w
  | succ n =>
      have hlooked := leaves_check (.alarm alarm) w
      cases hcheck : (check (.alarm alarm)).run w with
      | mk p v =>
          rw [poll, run_bind, hcheck]
          rw [hcheck] at hlooked
          cases p with
          | pending c => exact hlooked
          | next f =>
              obtain rfl := check_alarm_next (congrArg Prod.fst hcheck)
              refine hlooked.trans ?_
              rw [Future.value, poll_done]
              exact .refl v

end Sim

end EventHub.Simulation
