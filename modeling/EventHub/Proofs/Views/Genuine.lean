import EventHub.Proofs.Stores.Studio
import EventHub.Proofs.Views.Bounds
import EventHub.Proofs.Views.Kept

/-!
Views are genuine. Whatever others do while a call for a view looks, renders and keeps: the
view that it returns is of the revision that the file has in the call's last turn, and its data
is what a generator makes of the content of this revision. A call starts a generator three
times at most and comes to its end; it gives up only if each attempt was overtaken by an
update; and if it returns no view it has stored none.
-/

namespace EventHub

open EventHub.Script EventHub.Simulation

namespace Studio

open Generation

variable {P : Type}

section

variable (generate : P → Entry → Bytes → Except String Bytes) (moves : List (Move P))

/-- Where a call for a view of this file and type has come to, after so many turns. -/
structure Served (n : Nat) (file : EntryId) (viewType : String) (turns : Nat)
    (c : Generation.Call P) : Prop where
  call : (run generate moves).calls[n]? = some c
  request : c.generation.file = file ∧ c.generation.viewType = viewType
  /-- The view was current in the last turn of the call. -/
  delivered : ∀ r, c.stage = .ended (.returned (.ok (some r))) →
    Delivered generate moves n c.generation r
  /-- Whenever the view is kept, its data is what a generator makes of the file. -/
  genuine : CallsOnly moves → ∀ r, c.stage = .ended (.returned (.ok (some r))) →
    ∀ seen, seen <+: moves →
      (run generate seen).workspace.view? file viewType = .ok (some r) →
      ∃ data, (run generate seen).workspace.viewData r = .ok data ∧ Genuine generate moves r data
  renderings : renderings generate n {} moves ≤ maxAttempts
  ends : 18 ≤ turns → c.stage.IsEnded
  /-- If the file has changed too often, it has during each attempt. -/
  stale : ∀ outcome, c.stage = .ended outcome → IsStale outcome →
    ∀ k, 1 ≤ k → k ≤ maxAttempts → Overtaken generate moves n { c.generation with attempt := k }
  /-- No turn of a call that comes to no view has changed the workspace. -/
  idle : ∀ outcome, c.stage = .ended outcome → IsViewless outcome →
    ∀ seen job now, seen ++ [.turn n job now] <+: moves →
      (run generate (seen ++ [.turn n job now])).workspace = (run generate seen).workspace

/-- So it is with every call. -/
def Faithful : Prop :=
  ∀ before file viewType after, moves = before ++ .call file viewType :: after →
    ∃ c, Served generate moves (run generate before).calls.size file viewType
      (after.countP (Move.isTurn (run generate before).calls.size)) c

end

variable {generate : P → Entry → Bytes → Except String Bytes} {moves : List (Move P)} {n : Nat}

variable (generate) in
/-- A call is there from when it is made. -/
theorem call_made (before : List (Move P)) (file : EntryId) (viewType : String) :
    (run generate (before ++ [.call file viewType])).calls[(run generate before).calls.size]? =
      some (.new file viewType) := by
  rw [run_concat, step, Array.getElem?_push_size]

/-- The data of a view that is kept is genuine. -/
theorem genuine_kept (hcalls : CallsOnly moves) {seen : List (Move P)} (hseen : seen <+: moves)
    {file : EntryId} {viewType : String} {r : View}
    (hfound : (run generate seen).workspace.view? file viewType = .ok (some r)) :
    ∃ data, (run generate seen).workspace.viewData r = .ok data ∧
      Genuine generate moves r data := by
  obtain ⟨data, hkept⟩ := Workspace.kept_of_view? hfound
  obtain ⟨rfl, rfl, -⟩ := (coherent_run seen).snapshot_of_lookup hkept
  obtain ⟨k, stored, hstored⟩ := stored_of_lookup (hcalls.of_le hseen) hkept
  exact ⟨data, Workspace.viewData_of_lookup hkept, (hstored.mono hseen).genuine⟩

theorem faithful_run (generate : P → Entry → Bytes → Except String Bytes) (moves : List (Move P)) :
    Faithful generate moves := by
  intro before file viewType after hmoves
  have hsplit : moves = (before ++ [.call file viewType]) ++ after := by simp [hmoves]
  have hmade := call_made generate before file viewType
  have hle : before ++ [.call file viewType] <+: moves := ⟨after, hsplit.symm⟩
  obtain ⟨c, hcall, hfile, htype⟩ := call_onward hmade hle
  have htraced := (accounted_run moves _ c hcall).traced
  refine ⟨c, hcall, ⟨hfile, htype⟩, ?delivered, ?genuine, ?renderings, ?ends, ?stale, ?idle⟩
  case delivered =>
    intro r hended
    rw [hended] at htraced
    cases htraced with
    | ended outcome hview hstale => exact hview r rfl
  case genuine =>
    intro hcalls r _ seen hseen hkept
    exact genuine_kept hcalls hseen hkept
  case renderings => exact renderings_le {} _ moves
  case ends =>
    intro hturns
    rw [← Generation.Call.turnsLeft_new file viewType] at hturns
    obtain ⟨c', hcall', hended⟩ := ended_of_turns hmade hturns
    rw [← hsplit, hcall] at hcall'
    cases hcall'
    exact hended
  case stale =>
    intro outcome hended hstale
    rw [hended] at htraced
    cases htraced with
    | ended outcome hview hovertaken => exact hovertaken hstale
  case idle =>
    intro outcome hended hviewless seen job now hturn
    refine idle_turns ?_ hturn
    intro g r hview
    rw [hcall] at hview
    cases hview
    cases hended
    exact hviewless r rfl

end Studio

open Studio Generation in
/-- A view that is returned is what a generator makes of the file as it is in the call's last
turn; a call starts a generator three times at most and ends; it gives up only if it was
overtaken each time; and without a view it has stored nothing. So it is with all calls in every
world. -/
theorem genuine_views :
    (∀ (P : Type) (generate : P → Entry → Bytes → Except String Bytes)
      (moves : List (Studio.Move P)), Faithful generate moves) ∧
    ∀ (s : Scenario) (w : World), Scenario.Leads s.start w →
      ∃ moves, w.studio = run Renderer.generate moves ∧ Faithful Renderer.generate moves ∧
        ∀ w', Scenario.Leads w w' →
          ∃ later, w'.studio = run Renderer.generate (moves ++ later) ∧
            Faithful Renderer.generate (moves ++ later) := by
  refine ⟨fun P => faithful_run, ?_⟩
  intro s w hleads
  exact hleads.studio_holds (faithful_run Renderer.generate)

namespace Studio

/-- A generator that makes of a file what it holds. -/
def copy (_ : Unit) (_ : Entry) (content : Bytes) : Except String Bytes := .ok content

/-- The turns of an attempt until it wants to keep its data. -/
def attempt (n : Nat) : List (Move Unit) :=
  List.replicate 4 (.turn n (.ok ()) 0) ++ [.handOver n, .turn n (.ok ()) 0]

/-- A file is updated while two calls make views of it; the first one then succeeds. -/
def updatedMeanwhile : List (Move Unit) :=
  [.register ⟨"copy", fun _ => .returned true, ()⟩, .register ⟨"late", fun _ => .returned true, ()⟩,
    .request (.file "a.bin" none [1]), .call ⟨1⟩ "copy", .call ⟨1⟩ "late"] ++
  attempt 0 ++ attempt 1 ++ [.request (.update ⟨1⟩ [2]), .turn 0 (.ok ()) 0, .turn 1 (.ok ()) 0] ++
  attempt 0 ++ [.turn 0 (.ok ()) 7]

/-- The second one is overtaken again, and once more. -/
def updatedThrice : List (Move Unit) :=
  updatedMeanwhile ++
  attempt 1 ++ [.request (.update ⟨1⟩ [3]), .turn 1 (.ok ()) 0] ++
  attempt 1 ++ [.request (.update ⟨1⟩ [4]), .turn 1 (.ok ()) 0]

end Studio

set_option maxRecDepth 4096 in
open Studio Generation in
/-- The first call comes to a view of the second content, in its second attempt; the second
call gives up and has changed nothing. -/
theorem genuine_views_overtaken :
    let r : View := ⟨⟨1⟩, "copy", ⟨2⟩, 7⟩
    CallsOnly updatedThrice ∧
    Delivered copy updatedThrice 0 ⟨⟨1⟩, "copy", 2⟩ r ∧
    (∃ data, (run copy updatedMeanwhile).workspace.viewData r = .ok data ∧
      Genuine copy updatedThrice r data) ∧
    renderings copy 0 {} updatedThrice = 2 ∧
    (∀ k, 1 ≤ k → k ≤ maxAttempts → Overtaken copy updatedThrice 1 ⟨⟨1⟩, "late", k⟩) ∧
    (∀ seen job now, seen ++ [.turn 1 job now] <+: updatedThrice →
      (run copy (seen ++ [.turn 1 job now])).workspace = (run copy seen).workspace) ∧
    ∃ moves, (Scenario.start {}).studio = run Renderer.generate moves := by
  intro r
  have hcalls : CallsOnly updatedThrice := by
    intro file revision viewType data stamp
    simp [updatedThrice, updatedMeanwhile, Studio.attempt]
  obtain ⟨hfaithful, hworlds⟩ := genuine_views
  obtain ⟨c, hfirst⟩ := hfaithful Unit copy updatedThrice (updatedThrice.take 3) ⟨1⟩ "copy"
    (updatedThrice.drop 4) rfl
  obtain ⟨c', hsecond⟩ := hfaithful Unit copy updatedThrice (updatedThrice.take 4) ⟨1⟩ "late"
    (updatedThrice.drop 5) rfl
  have hview : (run copy updatedThrice).calls[0]? =
      some ⟨⟨⟨1⟩, "copy", 2⟩, .ended (.returned (.ok (some r)))⟩ := rfl
  have hstale : (run copy updatedThrice).calls[1]? =
      some ⟨⟨⟨1⟩, "late", 3⟩,
        .ended (.returned (.error (.workspace (.staleRevision ⟨1⟩ ⟨3⟩ ⟨4⟩))))⟩ := rfl
  cases hfirst.call.symm.trans hview
  cases hsecond.call.symm.trans hstale
  obtain ⟨moves, hmoves, -⟩ := hworlds {} _ .refl
  refine ⟨hcalls, hfirst.delivered r rfl, ?_, rfl, ?_, ?_, moves, hmoves⟩
  · exact hfirst.genuine hcalls r rfl updatedMeanwhile ⟨_, rfl⟩ rfl
  · exact hsecond.stale _ rfl ⟨_, _, _, rfl⟩
  · exact hsecond.idle _ rfl (by simp [IsViewless])

end EventHub
