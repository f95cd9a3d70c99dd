import EventHub.Proofs.Panics.Closures

/-!
The numbers of events restore the order of content changes. Whoever takes turns, the ledger of
the events that the workspaces have created stays complete: a commit and the creation of its
event happen in one go, and whatever else is done between them and the next commit changes no
file. So the events of a file, sorted by their numbers, are all that it has held, and the last
one is what it holds.
-/

namespace EventHub

open EventHub.Script EventHub.Simulation

namespace Simulation

/-- What is entered in the turn of a task. -/
def World.turnEntries (w : World) (id : Nat) : Ledger :=
  match w.tasks[id]? with
  | none => []
  | some t => if t.isAborted then [] else t.running.entries (w.entered id t)

/-- What is entered in the next turn. -/
def World.nextEntries (w : World) : Ledger :=
  match w.nextTurn? with
  | none => []
  | some (id, v) => v.turnEntries id

namespace Sim

variable {w : World}

/-! ### One turn -/

theorem silent_setTask (id : Nat) (change : Task → Task) (w : World) :
    Silent w ((setTask id change).run w).2 := by
  rw [setTask, run_modify]
  split
  · exact .refl w
  · exact .of_eq rfl rfl

theorem silent_finishTask (id : Nat) (r : Running) (w : World) :
    Silent w ((finishTask id r).run w).2 :=
  (leaves_cancel id r w).toSilent.trans (silent_setTask id _ _)

theorem silent_putDown (id : Nat) (r : Running) (w : World) :
    Silent w ((putDown id r).run w).2 := by
  rw [putDown, run_bind, run_bind]
  split
  · exact (silent_setTask id _ w).trans (silent_finishTask id r _)
  · exact silent_setTask id _ w

theorem silent_blockingEnded (task : Nat) (job : JobId) (ended : Outcome JobResult) (w : World) :
    Silent w ((blockingEnded task job ended).run w).2 := by
  have hrest : Leaves (wakeAll ((w.blockingWaiters.partition fun b => b.1 = task).1.map Prod.snd)
      >>= fun _ => updatePool (·.returnToken job)) :=
    .bind (leaves_wakeAll _) fun _ => leaves_updatePool _
  let v : World :=
    { w with
      blockingDone := (task, ended) :: w.blockingDone
      blockingWaiters := (w.blockingWaiters.partition fun b => b.1 = task).2
      blockingActive := none }
  have hnoted : Silent w v := .of_eq rfl rfl
  exact hnoted.trans (hrest v).toSilent

theorem enters_advance (i : Nat) (r : Running) (w : World) :
    Enters w (r.entries w) ((advance i r).run w).2 := by
  by_cases hr : ∃ job f, r = .blocking job f
  · obtain ⟨job, f, rfl⟩ := hr
    have hpolled := (records_poll pollFuel f w).enters
    rw [advance, run_bind]
    refine hpolled.then_silent ?_
    generalize (poll pollFuel f).run w = polled
    obtain ⟨f', v⟩ := polled
    cases f' with
    | done ended => exact silent_blockingEnded i job ended v
    | _ => exact .refl v
  · exact (records_advance i (fun job f h => hr ⟨job, f, h⟩) w).enters

theorem enters_runTask (id : Nat) (w : World) :
    Enters w (w.turnEntries id) ((runTask id).run w).2 := by
  rw [World.turnEntries]
  cases ht : w.tasks[id]? with
  | none =>
      rw [runTask_run_none ht]
      exact .of_silent (.refl w)
  | some t =>
      rw [runTask_run ht, run_bind]
      refine .after_silent (uneventful_entered ht).toSilent ?_
      refine Enters.then_silent ?_ (leaves_endTurn id _).toSilent
      dsimp only
      rw [ownTurn]
      split
      · exact .of_silent (silent_finishTask id t.running _)
      · exact (enters_advance id t.running _).then_silent (silent_putDown id _ _)

theorem enters_runNext (w : World) : Enters w w.nextEntries (runNext.run w).2 := by
  have hnext := runsNext w
  rw [World.nextEntries]
  generalize w.nextTurn? = turn, (runNext.run w).2 = w' at hnext ⊢
  cases hnext with
  | turn id ready blockingQueue streak blockingActive =>
      have hchosen : Silent w (w.choosing ready blockingQueue streak blockingActive) :=
        .of_eq rfl rfl
      exact .after_silent hchosen (enters_runTask id _)
  | look => exact .of_silent (leaves_lookAround w).toSilent
  | rest => exact .of_silent (.of_eq rfl rfl)

end Sim

end Simulation

namespace Scenario

variable {s : Scenario} {w w' w'' : World} {entries entries' : Ledger}

/-- What a world comes to, turn by turn, and what is entered on the way. -/
inductive LeadsBy (w : World) : Ledger → World → Prop
  | refl : LeadsBy w [] w
  | handIn (step : Step) {entries : Ledger} {w' : World} (h : LeadsBy w entries w') :
      LeadsBy w entries ((handIn step).run w').2
  | next {entries : Ledger} {w' : World} (h : LeadsBy w entries w') :
      LeadsBy w (entries ++ w'.nextEntries) (Sim.runNext.run w').2
  | clock {entries : Ledger} {w' : World} (h : LeadsBy w entries w') :
      LeadsBy w entries (Sim.moveClock.run w').2

theorem LeadsBy.leads (h : LeadsBy w entries w') : Leads w w' := by
  induction h with
  | refl => exact .refl
  | handIn step _ ih => exact ih.handIn step
  | next _ ih => exact ih.next
  | clock _ ih => exact ih.clock

/-- However a world is reached, there is a ledger of the way. -/
theorem Leads.leadsBy (h : Leads w w') : ∃ entries, LeadsBy w entries w' := by
  induction h with
  | refl => exact ⟨[], .refl⟩
  | handIn step _ ih =>
      obtain ⟨entries, ih⟩ := ih
      exact ⟨entries, ih.handIn step⟩
  | next _ ih =>
      obtain ⟨entries, ih⟩ := ih
      exact ⟨_, ih.next⟩
  | clock _ ih =>
      obtain ⟨entries, ih⟩ := ih
      exact ⟨entries, ih.clock⟩

theorem LeadsBy.trans (h : LeadsBy w entries w') (h' : LeadsBy w' entries' w'') :
    LeadsBy w (entries ++ entries') w'' := by
  induction h' with
  | refl =>
      rw [List.append_nil]
      exact h
  | handIn step _ ih => exact ih.handIn step
  | next _ ih =>
      rw [← List.append_assoc]
      exact ih.next
  | clock _ ih => exact ih.clock

theorem LeadsBy.enters (h : LeadsBy w entries w') : Enters w entries w' := by
  induction h with
  | refl => exact .of_silent (.refl w)
  | handIn step _ ih =>
      have hleaves : Sim.Leaves (Scenario.handIn step) :=
        .bind (.modify fun _ => rfl) fun _ => .bind (Sim.leaves_spawn _) fun _ => .pure _
      exact ih.then_silent (hleaves _).toSilent
  | next _ ih => exact ih.trans (Sim.enters_runNext _)
  | clock _ ih => exact ih.then_silent (Sim.leaves_moveClock _).toSilent

/-- Before the first step no workspace has created an event. -/
theorem covers_start : Ledger.Covers [] s.start where
  sorted := .nil
  issued _ h := by cases h
  chronicles index := by
    have hempty : s.start.workspaceAt index = {} := by
      cases hfound : s.start.workspaces[index]? with
      | none =>
          rw [World.workspaceAt, hfound]
          rfl
      | some hosted => exact (World.workspaceAt_found hfound).trans (workspace_start hfound)
    rw [hempty]
    exact .empty

theorem LeadsBy.covers (h : LeadsBy s.start entries w) : entries.Covers w :=
  h.enters [] covers_start

end Scenario

namespace Simulation

/-- The events of one file of a workspace. -/
def Ledger.about (ledger : Ledger) (index : Nat) (id : EntryId) : List Issue :=
  (ledger.of index).filter (·.isAbout id)

/-- The events of a file restore the order in which its content changed: their numbers increase
as they tell the life of the file, and the one with the greatest number carries what the file
holds, in the revision that counts them. -/
structure Restores (state : Workspace) (e : Entry) (issues : List Issue) : Prop where
  increasing : issues.Pairwise fun i later => i.event.seq < later.event.seq
  tells : state.Tells e issues
  greatest : ∀ i ∈ issues, (∀ other ∈ issues, other.event.seq ≤ i.event.seq) →
    ∃ data, i.event.notice.file? = some (e, data) ∧
      state.snapshot e.id = .ok ⟨data, ⟨issues.length⟩⟩

theorem Restores.of_tells {state : Workspace} {e : Entry} {issues : List Issue}
    (hincreasing : issues.Pairwise fun i later => i.event.seq < later.event.seq)
    (htells : state.Tells e issues) : Restores state e issues := by
  refine ⟨hincreasing, htells, ?_⟩
  intro i hi hgreatest
  obtain ⟨last, data, hlast, hfile, hcurrent⟩ := htells.current
  obtain ⟨before, rfl⟩ := List.getLast?_eq_some_iff.mp hlast
  have hsame : i = last := by
    rcases List.mem_append.mp hi with hbefore | hend
    · have hlt := (List.pairwise_append.mp hincreasing).2.2 i hbefore last (by simp)
      have hle := hgreatest last (by simp)
      omega
    · exact List.mem_singleton.mp hend
  rw [hsame]
  exact ⟨data, hfile, hcurrent⟩

variable {w : World} {ledger : Ledger} {index : Nat} {hosted : Hosted} {e : Entry}

theorem Ledger.Covers.restores (h : ledger.Covers w) (hfound : w.workspaces[index]? = some hosted)
    {id : EntryId} (he : hosted.workspace.entry? id = some e) (hplain : e.directory = false) :
    Restores hosted.workspace e (ledger.about index id) := by
  have hchronicle := h.chronicles index
  rw [World.workspaceAt_found hfound] at hchronicle
  refine .of_tells ?_ (hchronicle.told id e he hplain)
  refine List.Pairwise.filter _ (List.pairwise_filterMap.mpr (h.sorted.imp ?_))
  intro entry later hlt i hi j hj
  obtain ⟨-, rfl⟩ : entry.1 = index ∧ entry.2 = i := by simpa using hi
  obtain ⟨-, rfl⟩ : later.1 = index ∧ later.2 = j := by simpa using hj
  exact hlt

theorem Ledger.about_append (first second : Ledger) (index : Nat) (id : EntryId) :
    Ledger.about (first ++ second) index id = first.about index id ++ second.about index id := by
  rw [about, of_append, List.filter_append]
  rfl

end Simulation

open Scenario in
/-- Sequence numbers restore the order of content changes. In every world that a system comes to,
whoever takes turns there, and for every file of every workspace: the events that the workspace
has created for it, sorted by their numbers, are one that it was added and then updates. The k-th
of them carries the entry of the file and the bytes of its k-th revision, there is one for each
revision, and the one with the greatest number carries what the file holds. So it is in every
later world, where the events that there were are followed by those of later commits. -/
theorem events_restore_content_order (s : Scenario) :
    (∀ w, Leads s.start w → ∃ ledger, LeadsBy s.start ledger w) ∧
    ∀ ledger w, LeadsBy s.start ledger w →
      ∀ (index : Nat) (hosted : Hosted), w.workspaces[index]? = some hosted →
        ∀ id e, hosted.workspace.entry? id = some e → e.directory = false →
          Restores hosted.workspace e (ledger.about index id) ∧
          ∀ more w', LeadsBy w more w' → ∃ hosted', w'.workspaces[index]? = some hosted' ∧
            Restores hosted'.workspace e (ledger.about index id ++ more.about index id) := by
  refine ⟨fun w h => h.leadsBy, ?_⟩
  intro ledger w hleads index hosted hfound id e he hplain
  refine ⟨hleads.covers.restores hfound he hplain, ?_⟩
  intro more w' hleads'
  obtain ⟨requests, hfound'⟩ := hleads.leads.workspace_onward hleads'.leads hfound
  have he' : Workspace.entry? (hosted.workspace.run requests) id = some e :=
    Workspace.IsTree.entry?_of_prefix (Workspace.files_begin _ requests) he
  refine ⟨_, hfound', ?_⟩
  rw [← Ledger.about_append]
  exact (hleads.trans hleads').covers.restores hfound' he' hplain

namespace Scenario

/-- A script closes its broker, adds a file and gives it new content. -/
def writesUnheard : World :=
  ((handIn (.control (.all [.broker 0 .shut, .workspace 0 (.addFile "a.bin" none [1]),
    .workspace 0 (.update ⟨1⟩ [2])]))).run (start {})).2

/-- The script has the second turn, after the registry. -/
def hasWritten : World := (Sim.runNext.run (Sim.runNext.run writesUnheard).2).2

def unheardLedger : Ledger :=
  [] ++ writesUnheard.nextEntries ++ (Sim.runNext.run writesUnheard).2.nextEntries

end Scenario

open Scenario in
/-- Neither event can be fired, and yet there is one for each revision. -/
theorem events_restore_content_order_unheard :
    (unheardLedger.about 0 ⟨1⟩).map (·.event) =
      [⟨0, .added { id := ⟨1⟩, name := "a.bin" } [1]⟩,
        ⟨1, .updated { id := ⟨1⟩, name := "a.bin" } [2]⟩] ∧
    ∃ hosted, hasWritten.workspaces[0]? = some hosted ∧
      Restores hosted.workspace { id := ⟨1⟩, name := "a.bin" } (unheardLedger.about 0 ⟨1⟩) := by
  have hleads : LeadsBy (start {}) unheardLedger hasWritten := .next (.next (.handIn _ .refl))
  have hentry : ((hasWritten.workspaces[0]?).map fun hosted => hosted.workspace.entry? ⟨1⟩) =
      some (some { id := ⟨1⟩, name := "a.bin" }) := by
    decide +kernel
  obtain ⟨hosted, hfound, he⟩ := Option.map_eq_some_iff.mp hentry
  refine ⟨by decide +kernel, hosted, hfound, ?_⟩
  exact ((events_restore_content_order {}).2 _ _ hleads 0 hosted hfound ⟨1⟩ _ he rfl).1

end EventHub
