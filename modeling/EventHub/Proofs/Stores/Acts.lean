import EventHub.Proofs.Pool.Live
import EventHub.Proofs.Simulation.Turns
import EventHub.Proofs.Views.Turn
import Mathlib.Logic.Relation

/-!
What code does to the system apart from its brokers. The pool, the workspaces, the
mapper, the generators, the trigger of the shutdown and the counters are changed by
a few kinds of acts only, each carried out at once. So what every kind of act keeps
is kept however the tasks take turns, and a workspace or the pool goes through one
list of requests or moves.
-/

namespace EventHub

namespace Pool.Move

/-- A move that belongs to no job's task. -/
def IsOpen (m : Move) : Prop := m.owner? = none

theorem IsOpen.isPossible {m : Move} (h : m.IsOpen) (p : Pool) : m.isPossible p = true := by
  cases m with
  | begin id t => cases h
  | retry id t => cases h
  | finish id ending => cases h
  | _ => rfl

/-- A move that the task of a job can make. -/
def IsOpenTo (id : JobId) (m : Move) : Prop := m.owner? = none ∨ m.owner? = some id

end Pool.Move

namespace Simulation

/-- What a world keeps of the system apart from its brokers. -/
structure Stores where
  pool : Pool
  workspaces : Array Hosted
  mapper : Mapper Plugin
  views : Views Renderer
  viewCalls : Array (Generation.Call Renderer)
  trigger : ShutdownTrigger
  nextSeq : Nat
  nextStamp : Nat

def World.stores (w : World) : Stores where
  pool := w.pool
  workspaces := w.workspaces
  mapper := w.mapper
  views := w.views
  viewCalls := w.viewCalls
  trigger := w.trigger
  nextSeq := w.nextSeq
  nextStamp := w.nextStamp

/-- The stores after a turn of a call for a view that found the workspace like this. -/
def Stores.turnView (s : Stores) (call : Nat) (state : Workspace) (job : JobResult) (now : Nat) :
    Stores :=
  let turned := (s.viewCalls[call]?.getD default).turn state s.views job now
  { s with
    workspaces :=
      match s.workspaces[0]? with
      | none => s.workspaces
      | some h => s.workspaces.set! 0 { h with workspace := turned.1 }
    viewCalls := s.viewCalls.set! call turned.2 }

/-- One thing that is done to the stores by code that may make such moves of the
pool. -/
inductive Act (may : Pool.Move → Prop) (s : Stores) : Stores → Prop where
  | pool (m : Pool.Move) (hmay : may m) (hpossible : m.isPossible s.pool = true) :
      Act may s { s with pool := s.pool.step m }
  | request (index : Nat) (h : Hosted) (hfound : s.workspaces[index]? = some h)
      (q : Workspace.Request) :
      Act may s { s with
        workspaces := s.workspaces.set! index { h with workspace := h.workspace.after q } }
  | newWorkspace (broker : Nat) : Act may s { s with workspaces := s.workspaces.push { broker } }
  | symbol (name : String) (types : MappingTypes) (h : s.mapper.types.addSymbol name = .ok types) :
      Act may s { s with mapper := { s.mapper with types } }
  | reference (name symbol : String) (types : MappingTypes)
      (h : s.mapper.types.addReference name symbol = .ok types) :
      Act may s { s with mapper := { s.mapper with types } }
  | factory (f : Mapper.Factory Plugin) : Act may s { s with mapper := s.mapper.addFactory f }
  | generator (g : Views.Generator Renderer) : Act may s { s with views := s.views.add g }
  | viewCall (file : EntryId) (viewType : String) :
      Act may s { s with viewCalls := s.viewCalls.push (.new file viewType) }
  | handOver (call : Nat) :
      Act may s { s with viewCalls := s.viewCalls.modify call (·.handOver Renderer.generate) }
  | turnView (call : Nat) (state : Workspace)
      (hstate : ∀ h, s.workspaces[0]? = some h → h.workspace = state) (job : JobResult)
      (now : Nat) :
      Act may s (s.turnView call state job now)
  | pull : Act may s { s with trigger := s.trigger.pull.1 }
  | watch (watchers : List Ticket) : Act may s { s with trigger := { s.trigger with watchers } }
  | event : Act may s { s with nextSeq := s.nextSeq + 1 }
  | stamp : Act may s { s with nextStamp := s.nextStamp + 1 }

/-- One thing after another. -/
def Acts (may : Pool.Move → Prop) : Stores → Stores → Prop := Relation.ReflTransGen (Act may)

variable {may wider : Pool.Move → Prop} {s s' s'' : Stores}

theorem Act.widen (h : Act may s s') (hwider : ∀ m, may m → wider m) : Act wider s s' := by
  cases h with
  | pool m hmay hpossible => exact .pool m (hwider m hmay) hpossible
  | request index hosted hfound q => exact .request index hosted hfound q
  | newWorkspace broker => exact .newWorkspace broker
  | symbol name types h => exact .symbol name types h
  | reference name symbol types h => exact .reference name symbol types h
  | factory f => exact .factory f
  | generator g => exact .generator g
  | viewCall file viewType => exact .viewCall file viewType
  | handOver call => exact .handOver call
  | turnView call state hstate job now => exact .turnView call state hstate job now
  | pull => exact .pull
  | watch watchers => exact .watch watchers
  | event => exact .event
  | stamp => exact .stamp

namespace Acts

theorem refl (s : Stores) : Acts may s s := Relation.ReflTransGen.refl

theorem trans (h : Acts may s s') (h' : Acts may s' s'') : Acts may s s'' :=
  Relation.ReflTransGen.trans h h'

theorem of_eq (h : s' = s) : Acts may s s' := by
  rw [h]
  exact refl s

theorem one (h : Act may s s') : Acts may s s' := Relation.ReflTransGen.single h

theorem widen (h : Acts may s s') (hwider : ∀ m, may m → wider m) : Acts wider s s' := by
  induction h with
  | refl => exact refl s
  | tail _ hlast ih => exact ih.trans (one (hlast.widen hwider))

/-- What every act keeps is kept. -/
theorem keeps {P : Stores → Prop} (h : Acts may s s')
    (hact : ∀ s s', Act may s s' → P s → P s') (hs : P s) : P s' := by
  induction h with
  | refl => exact hs
  | tail _ hlast ih => exact hact _ _ hlast ih

end Acts

/-- An act changes the pool by a move, or not at all. -/
theorem Act.pool_cases (h : Act may s s') :
    s'.pool = s.pool ∨ ∃ m, may m ∧ m.isPossible s.pool = true ∧ s'.pool = s.pool.step m := by
  cases h with
  | pool m hmay hpossible => exact Or.inr ⟨m, hmay, hpossible, rfl⟩
  | _ => exact Or.inl rfl

/-- An act changes a workspace by a request, or not at all. -/
theorem Act.workspace_cases (h : Act may s s') {index : Nat} {hosted : Hosted}
    (hfound : s.workspaces[index]? = some hosted) :
    s'.workspaces[index]? = some hosted ∨
      ∃ q, s'.workspaces[index]? =
        some { hosted with workspace := hosted.workspace.after q } := by
  cases h with
  | request i other hother q =>
      by_cases hi : i = index
      · subst hi
        cases hother.symm.trans hfound
        right
        exact ⟨q, getElem?_set_self hfound _⟩
      · left
        exact (getElem?_set_other hi _).trans hfound
  | newWorkspace broker =>
      obtain ⟨hlt, -⟩ := Array.getElem?_eq_some_iff.mp hfound
      left
      rw [Array.getElem?_push_lt hlt]
      exact (Array.getElem?_eq_getElem hlt).symm.trans hfound
  | turnView call state hstate job now =>
      let turned := (s.viewCalls[call]?.getD default).turn state s.views job now
      cases hzero : s.workspaces[0]? with
      | none =>
          left
          simpa only [Stores.turnView, hzero] using hfound
      | some h =>
          have hset : (s.turnView call state job now).workspaces =
              s.workspaces.set! 0 { h with workspace := turned.1 } := by
            simp only [Stores.turnView, hzero, turned]
          rw [hset]
          by_cases hi : 0 = index
          · subst hi
            cases hzero.symm.trans hfound
            rw [getElem?_set_self hfound]
            rcases (Generation.Call.turned _ state s.views job now).workspace with hsame | ⟨q, hq⟩
            · exact Or.inl (by rw [show turned.1 = _ from hsame, ← hstate hosted hfound])
            · exact Or.inr ⟨q, by rw [show turned.1 = _ from hq, ← hstate hosted hfound]⟩
          · left
            exact (getElem?_set_other hi _).trans hfound
  | _ => exact Or.inl hfound

/-- A workspace that an act makes is empty. -/
theorem Act.newWorkspace_cases (h : Act may s s') {index : Nat} {hosted : Hosted}
    (hnone : s.workspaces[index]? = none) (hfound : s'.workspaces[index]? = some hosted) :
    hosted.workspace = {} := by
  cases h with
  | request i other hother q =>
      rw [Array.set!_eq_setIfInBounds, Array.getElem?_setIfInBounds] at hfound
      split at hfound
      · rename_i hi
        subst hi
        cases hnone.symm.trans hother
      · cases hnone.symm.trans hfound
  | newWorkspace broker =>
      rw [Array.getElem?_push] at hfound
      split at hfound
      · cases hfound
        rfl
      · cases hnone.symm.trans hfound
  | turnView call state hstate job now =>
      cases hzero : s.workspaces[0]? with
      | none =>
          simp only [Stores.turnView, hzero] at hfound
          cases hnone.symm.trans hfound
      | some h =>
          have hne : 0 ≠ index := by
            rintro rfl
            cases hnone.symm.trans hzero
          simp only [Stores.turnView, hzero] at hfound
          rw [getElem?_set_other hne] at hfound
          cases hnone.symm.trans hfound
  | _ => cases hnone.symm.trans hfound

namespace Acts

/-- The pool goes through a list of moves. -/
theorem pool (h : Acts may s s') : ∃ moves, s'.pool = s.pool.run moves := by
  induction h with
  | refl => exact ⟨[], rfl⟩
  | tail _ hlast ih =>
      obtain ⟨moves, hmoves⟩ := ih
      rcases hlast.pool_cases with hsame | ⟨m, -, -, hstep⟩
      · exact ⟨moves, hsame.trans hmoves⟩
      · refine ⟨moves ++ [m], ?_⟩
        rw [hstep, hmoves, Pool.run_concat]

/-- A workspace goes through a list of requests. -/
theorem workspace (h : Acts may s s') {index : Nat} {hosted : Hosted}
    (hfound : s.workspaces[index]? = some hosted) :
    ∃ requests, s'.workspaces[index]? =
      some { hosted with workspace := hosted.workspace.run requests } := by
  induction h with
  | refl => exact ⟨[], hfound⟩
  | tail _ hlast ih =>
      obtain ⟨requests, hrun⟩ := ih
      rcases hlast.workspace_cases hrun with hsame | ⟨q, hq⟩
      · exact ⟨requests, hsame⟩
      · refine ⟨requests ++ [q], ?_⟩
        rw [hq, Workspace.run_concat]

/-- A workspace that was not there goes through requests from when it was empty. -/
theorem newWorkspace (h : Acts may s s') {index : Nat} (hnone : s.workspaces[index]? = none)
    {hosted : Hosted} (hfound : s'.workspaces[index]? = some hosted) :
    ∃ requests, hosted.workspace = Workspace.run {} requests := by
  induction h generalizing hosted with
  | refl => cases hnone.symm.trans hfound
  | @tail s₁ s₂ hfirst hlast ih =>
      cases hbefore : s₁.workspaces[index]? with
      | none => exact ⟨[], hlast.newWorkspace_cases hbefore hfound⟩
      | some hosted₁ =>
          obtain ⟨requests, hrun⟩ := ih hbefore
          rcases hlast.workspace_cases hbefore with hsame | ⟨q, hq⟩
          · cases hsame.symm.trans hfound
            exact ⟨requests, hrun⟩
          · cases hq.symm.trans hfound
            exact ⟨requests ++ [q], by rw [Workspace.run_concat, hrun]⟩

/-- Code that makes no job's own move leaves every job where it stands. -/
theorem job?_kept (h : Acts Pool.Move.IsOpen s s') {id : JobId} {j : Job}
    (hj : s.pool.job? id = some j) : s'.pool.job? id = some j := by
  refine h.keeps (P := fun s => s.pool.job? id = some j) ?_ hj
  intro s s' hact hkept
  rcases hact.pool_cases with hsame | ⟨m, hopen, hpossible, hstep⟩
  · rw [hsame]
    exact hkept
  · have hchange := Pool.change_act s.pool m hpossible
    rw [hopen] at hchange
    rw [hstep, Pool.step, if_pos hpossible]
    exact hchange.job?_kept hkept

end Acts

end Simulation

end EventHub
