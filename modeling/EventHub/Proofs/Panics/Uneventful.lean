import EventHub.Proofs.Simulation.Schedule
import EventHub.Proofs.Workspace.Chronicle

/-!
What a world may come to while nothing of note happens: no end of blocking work is noted, the
tasks run what they ran, and no file gets other content.
-/

namespace EventHub.Simulation

/-- Nothing was said about the end of blocking work, and the tasks run what they ran. -/
structure Untold (w w' : World) : Prop where
  done : w'.blockingDone = w.blockingDone
  tasks : ∀ (i : Nat) (t : Task), w.tasks[i]? = some t →
    ∃ t', w'.tasks[i]? = some t' ∧ t'.running = t.running

/-- Besides, the application starts the same services by itself as before. -/
structure Untouched (w w' : World) : Prop extends Untold w w' where
  preset : w'.preset = w.preset

/-- The workspace of this number. One that does not exist is as good as an empty one. -/
def World.workspaceAt (w : World) (index : Nat) : Workspace :=
  ((w.workspaces[index]?).map (·.workspace)).getD {}

/-- No file of any workspace was added or got new content, and no event can get a number that
was taken before. -/
structure Silent (w w' : World) : Prop where
  nextSeq : w.nextSeq ≤ w'.nextSeq
  workspaces : ∀ index, (w.workspaceAt index).Keeps (w'.workspaceAt index)

structure Uneventful (w w' : World) : Prop extends Untouched w w', Silent w w'

/-- What most code does not come near. -/
def World.kept (w : World) :
    List (Nat × Outcome JobResult) × Array Task × List Service × Nat × Array Hosted :=
  (w.blockingDone, w.tasks, w.preset, w.nextSeq, w.workspaces)

variable {w w' w'' : World} {i index : Nat} {t t' : Task} {hosted : Hosted}

namespace Untouched

theorem refl (w : World) : Untouched w w := ⟨⟨rfl, fun _ t ht => ⟨t, ht, rfl⟩⟩, rfl⟩

theorem trans (h : Untouched w w') (h' : Untouched w' w'') : Untouched w w'' := by
  refine ⟨⟨h'.done.trans h.done, ?_⟩, h'.preset.trans h.preset⟩
  intro i t ht
  obtain ⟨t', ht', hrunning⟩ := h.tasks i t ht
  obtain ⟨t'', ht'', hrunning'⟩ := h'.tasks i t' ht'
  exact ⟨t'', ht'', hrunning'.trans hrunning⟩

end Untouched

namespace Silent

theorem refl (w : World) : Silent w w := ⟨Nat.le_refl _, fun _ => .refl _⟩

theorem trans (h : Silent w w') (h' : Silent w' w'') : Silent w w'' :=
  ⟨Nat.le_trans h.nextSeq h'.nextSeq, fun index => (h.workspaces index).trans (h'.workspaces index)⟩

theorem of_eq (hseq : w'.nextSeq = w.nextSeq) (hworkspaces : w'.workspaces = w.workspaces) :
    Silent w w' := by
  refine ⟨Nat.le_of_eq hseq.symm, fun index => ?_⟩
  rw [World.workspaceAt, World.workspaceAt, hworkspaces]
  exact .refl _

end Silent

theorem World.workspaceAt_found (h : w.workspaces[index]? = some hosted) :
    w.workspaceAt index = hosted.workspace := by
  rw [workspaceAt, h]
  rfl

theorem World.workspaceAt_set (h : w.workspaces[index]? = some hosted) (state : Workspace)
    (other : Nat) :
    World.workspaceAt { w with
      workspaces := w.workspaces.set! index { hosted with workspace := state } } other =
      if other = index then state else w.workspaceAt other := by
  by_cases hother : other = index
  · subst hother
    rw [if_pos rfl, workspaceAt, getElem?_set_self h]
    rfl
  · rw [if_neg hother, workspaceAt, getElem?_set_other (Ne.symm hother)]
    rfl

namespace Uneventful

theorem of_eq (h : w'.kept = w.kept) : Uneventful w w' := by
  simp only [World.kept, Prod.mk.injEq] at h
  obtain ⟨hdone, htasks, hpreset, hseq, hworkspaces⟩ := h
  refine ⟨⟨⟨hdone, ?_⟩, hpreset⟩, .of_eq hseq hworkspaces⟩
  intro i t ht
  rw [htasks]
  exact ⟨t, ht, rfl⟩

theorem refl (w : World) : Uneventful w w := of_eq rfl

theorem trans (h : Uneventful w w') (h' : Uneventful w' w'') : Uneventful w w'' :=
  ⟨h.toUntouched.trans h'.toUntouched, h.toSilent.trans h'.toSilent⟩

instance : IsPreorder World Uneventful where
  refl := refl
  trans _ _ _ := trans

theorem push (t : Task) : Uneventful w { w with tasks := w.tasks.push t } := by
  refine ⟨⟨⟨rfl, ?_⟩, rfl⟩, .of_eq rfl rfl⟩
  intro i s hs
  obtain ⟨hlt, -⟩ := Array.getElem?_eq_some_iff.mp hs
  exact ⟨s, (Array.getElem?_push_lt hlt).trans
    ((Array.getElem?_eq_getElem hlt).symm.trans hs), rfl⟩

/-- A task is changed without what it runs. -/
theorem set_task (ht : w.tasks[i]? = some t) (hrunning : t'.running = t.running) :
    Uneventful w { w with tasks := w.tasks.set! i t' } := by
  refine ⟨⟨⟨rfl, ?_⟩, rfl⟩, .of_eq rfl rfl⟩
  intro j s hs
  by_cases hj : i = j
  · subst hj
    cases ht.symm.trans hs
    exact ⟨t', getElem?_set_self ht t', hrunning⟩
  · exact ⟨s, (getElem?_set_other hj t').trans hs, rfl⟩

/-- Only the number that the next event gets and the workspaces have changed. -/
theorem of_silent {workspaces : Array Hosted} {seq : Nat}
    (h : Silent w { w with workspaces, nextSeq := seq }) :
    Uneventful w { w with workspaces, nextSeq := seq } :=
  ⟨⟨⟨rfl, fun _ t ht => ⟨t, ht, rfl⟩⟩, rfl⟩, h⟩

/-- A workspace is changed, and its files are as they were. -/
theorem set_workspace {state : Workspace} (h : w.workspaces[index]? = some hosted)
    (hkeeps : hosted.workspace.Keeps state) :
    Uneventful w { w with
      workspaces := w.workspaces.set! index { hosted with workspace := state } } := by
  refine .of_silent ⟨Nat.le_refl _, fun other => ?_⟩
  rw [World.workspaceAt_set h]
  split
  · rename_i hother
    rw [hother, World.workspaceAt_found h]
    exact hkeeps
  · exact .refl _

/-- There is one more workspace, and it is empty. -/
theorem push_workspace (broker : Nat) :
    Uneventful w { w with workspaces := w.workspaces.push { broker } } := by
  refine .of_silent ⟨Nat.le_refl _, fun index => ?_⟩
  have hsame : World.workspaceAt { w with workspaces := w.workspaces.push { broker } } index =
      w.workspaceAt index := by
    rw [World.workspaceAt, World.workspaceAt, Array.getElem?_push]
    split
    · rename_i hindex
      rw [hindex, Array.getElem?_size]
      rfl
    · rfl
  rw [hsame]
  exact .refl _

end Uneventful

end EventHub.Simulation
