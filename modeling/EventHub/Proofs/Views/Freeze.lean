import EventHub.Proofs.Views.Studio
import EventHub.Proofs.Workspace.Freeze

/-!
Calls for views at a workspace that is closed. Nothing is kept there any more, by a call that
was under way when it was closed or by a later one; but what was kept before is still found.
-/

namespace EventHub

namespace Generation.Call

variable {P : Type} {w : Workspace} {c : Call P} {file : EntryId} {viewType : String}

/-- A call for this view that has come to none but the one that is kept. -/
structure Reuses (w : Workspace) (file : EntryId) (viewType : String) (c : Call P) : Prop where
  ofFile : c.generation.file = file
  ofType : c.generation.viewType = viewType
  kept : ∀ r, c.stage = .ended (.returned (.ok (some r))) → w.view? file viewType = .ok (some r)

theorem reuses_new (w : Workspace) (file : EntryId) (viewType : String) :
    Reuses w file viewType (.new file viewType : Call P) :=
  ⟨rfl, rfl, fun _ h => by cases h⟩

/-- In a closed workspace a call can find a view, but not keep one. -/
theorem Reuses.turn (h : Reuses w file viewType c) (hclosed : w.isClosed = true) (v : Views P)
    (job : Except JobError Unit) (now : Nat) :
    Reuses w file viewType (c.turn w v job now).2 := by
  have hturned := c.turned w v job now
  obtain ⟨hfile, htype⟩ := hturned.request
  refine ⟨hfile.trans h.ofFile, htype.trans h.ofType, ?_⟩
  intro r hended
  generalize c.turn w v job now = turned at hturned hended
  obtain ⟨w', c'⟩ := turned
  cases hturned with
  | found g r' hfound =>
      cases hended
      obtain ⟨rfl, rfl, -⟩ := h
      exact hfound
  | kept g revision data now w' r' hstore =>
      cases hstore.symm.trans ((Workspace.refuses_of_closed hclosed).store _ _ _ _ _)
  | failed g stage outcome hstage hviewless hstale =>
      cases hended
      exact absurd rfl (hviewless r)
  | finished g outcome => exact h.kept r hended
  | _ => cases hended

theorem Reuses.handOver (h : Reuses w file viewType c)
    (generate : P → Entry → Bytes → Except String Bytes) :
    Reuses w file viewType (c.handOver generate) := by
  have hgeneration := c.handOver_generation generate
  refine ⟨hgeneration ▸ h.ofFile, hgeneration ▸ h.ofType, ?_⟩
  intro r hended
  rw [Call.handOver] at hended
  split at hended
  · cases hended
  · exact h.kept r hended

/-- A new call finds the view that is kept, in its first turn. -/
theorem turn_new {r : View} (hkept : w.view? file viewType = .ok (some r)) (v : Views P)
    (job : Except JobError Unit) (now : Nat) :
    ((Call.new file viewType).turn w v job now).2 =
      ⟨{ file, viewType }, .ended (.returned (.ok (some r)))⟩ := by
  simp only [turn, new, look, hkept, Next.stage]

end Generation.Call

namespace Studio

open Generation

variable {P : Type} {generate : P → Entry → Bytes → Except String Bytes}
  {moves before : List (Move P)} {n : Nat} {file : EntryId} {viewType : String}

/-- A closed workspace stays as it is. -/
theorem workspace_of_closed (h : before <+: moves)
    (hclosed : (run generate before).workspace.isClosed = true) :
    (run generate moves).workspace = (run generate before).workspace := by
  obtain ⟨requests, hrequests⟩ := workspace_onward generate h
  exact hrequests.trans (Workspace.run_of_closed hclosed requests)

/-- What a call has come to that was made when the workspace was closed: it has taken no turn, or
it has found the view that is kept, if there is one. -/
structure Finds (w : Workspace) (file : EntryId) (viewType : String) (hasTurned : Bool)
    (c : Generation.Call P) : Prop where
  reuses : c.Reuses w file viewType
  waits : hasTurned = false → c = .new file viewType
  found : ∀ r, w.view? file viewType = .ok (some r) → hasTurned = true →
    c.stage = .ended (.returned (.ok (some r)))

theorem Finds.step {s : Studio P} {hasTurned : Bool} {c : Generation.Call P}
    (h : Finds s.workspace file viewType hasTurned c) (hclosed : s.workspace.isClosed = true)
    (hcall : s.calls[n]? = some c) (m : Move P) :
    ∃ c', (Studio.step generate s m).calls[n]? = some c' ∧
      Finds s.workspace file viewType (hasTurned || m.isTurn n) c' := by
  rcases call_cases generate m hcall with ⟨hother, hsame⟩ | ⟨rfl, hhanded⟩ |
    ⟨job, now, rfl, -, hturned⟩
  · rw [hother, Bool.or_false]
    exact ⟨c, hsame, h⟩
  · refine ⟨_, hhanded, h.reuses.handOver generate, ?_, ?_⟩
    · intro hwaits
      have hnew := h.waits (by simpa [Move.isTurn] using hwaits)
      rw [hnew]
      rfl
    · intro r hkept hhas
      have hended := h.found r hkept (by simpa [Move.isTurn] using hhas)
      rw [c.handOver_ended generate ⟨_, hended⟩]
      exact hended
  · refine ⟨_, hturned, h.reuses.turn hclosed s.views job now, by simp [Move.isTurn], ?_⟩
    intro r hkept _
    cases hasTurned with
    | false => rw [h.waits rfl, Call.turn_new hkept]
    | true =>
        have hended := h.found r hkept rfl
        rw [(c.turned s.workspace s.views job now).ended hended]
        exact hended

/-- A workspace that is closed at some moment of these moves stays so, and a call that is made
from then on finds what is kept there, in its first turn, or comes to no view. -/
structure StaysClosed (generate : P → Entry → Bytes → Except String Bytes)
    (moves : List (Move P)) : Prop where
  workspace : ∀ before, before <+: moves → (run generate before).workspace.isClosed = true →
    (run generate moves).workspace = (run generate before).workspace
  calls : ∀ before file viewType after, moves = before ++ .call file viewType :: after →
    (run generate before).workspace.isClosed = true →
    ∃ c, (run generate moves).calls[(run generate before).calls.size]? = some c ∧
      Finds (run generate moves).workspace file viewType
        (after.any (·.isTurn (run generate before).calls.size)) c

theorem finds_run (before : List (Move P)) (file : EntryId) (viewType : String)
    (hclosed : (run generate before).workspace.isClosed = true) (after : List (Move P)) :
    ∃ c, (run generate (before ++ .call file viewType :: after)).calls[
        (run generate before).calls.size]? = some c ∧
      Finds (run generate before).workspace file viewType
        (after.any (·.isTurn (run generate before).calls.size)) c := by
  induction after using List.reverseRecOn with
  | nil =>
      refine ⟨.new file viewType, ?_, Call.reuses_new _ file viewType, fun _ => rfl, by simp⟩
      rw [run_concat, Studio.step, Array.getElem?_push_size]
  | append_singleton after m ih =>
      obtain ⟨c, hcall, hfinds⟩ := ih
      have hsame := workspace_of_closed
        (List.prefix_append before (.call file viewType :: after)) hclosed
      rw [← List.cons_append, ← List.append_assoc, run_concat, List.any_append]
      rw [← hsame] at hfinds hclosed
      obtain ⟨c', hcall', hfinds'⟩ := hfinds.step hclosed hcall m
      rw [← hsame]
      simpa using ⟨c', hcall', hfinds'⟩

theorem staysClosed_run (generate : P → Entry → Bytes → Except String Bytes)
    (moves : List (Move P)) : StaysClosed generate moves := by
  refine ⟨fun before => workspace_of_closed, ?_⟩
  rintro before file viewType after rfl hclosed
  rw [workspace_of_closed (List.prefix_append before _) hclosed]
  exact finds_run before file viewType hclosed after

end Studio

end EventHub
