import EventHub.Simulation.Poll
import Mathlib.Order.Defs.Unbundled

/-!
Turns of a computation. A computation goes on in turns of its own; between them
the world is whatever the others have made of it. What is kept here are the stores:
the workspaces, with all that is in them, and the pool with its jobs. A computation
fails clean if it can only fail while its own turns have kept them.
-/

namespace EventHub.Simulation

section

variable {α : Type} {xs : Array α} {i j : Nat} {v : α}

theorem getElem?_set_self (h : xs[i]? = some v) (v' : α) : (xs.set! i v')[i]? = some v' := by
  obtain ⟨hlt, -⟩ := Array.getElem?_eq_some_iff.mp h
  rw [Array.set!_eq_setIfInBounds, Array.getElem?_setIfInBounds_self_of_lt hlt]

theorem getElem?_set_other (h : i ≠ j) (v' : α) : (xs.set! i v')[j]? = xs[j]? := by
  rw [Array.set!_eq_setIfInBounds, Array.getElem?_setIfInBounds_ne h]

end

/-- The workspaces and the pool are the same. -/
structure Kept (w w' : World) : Prop where
  workspaces : w'.workspaces = w.workspaces
  pool : w'.pool = w.pool

namespace Kept

variable {w w' w'' : World}

theorem refl (w : World) : Kept w w := ⟨rfl, rfl⟩

theorem trans (h : Kept w w') (h' : Kept w' w'') : Kept w w'' :=
  ⟨h'.workspaces.trans h.workspaces, h'.pool.trans h.pool⟩

instance : IsPreorder World Kept where
  refl := refl
  trans _ _ _ := trans

end Kept

namespace Sim

variable {α β : Type}

theorem run_bind (x : Sim α) (f : α → Sim β) (w : World) :
    (x >>= f).run w = (f (x.run w).1).run (x.run w).2 := rfl

theorem run_modify (f : World → World) (w : World) :
    ((modify f : Sim Unit).run w).2 = f w := rfl

/-- The action brings each world to one that is related to it like this. -/
def Ensures (R : World → World → Prop) (x : Sim α) : Prop := ∀ w, R w (x.run w).2

namespace Ensures

variable {R : World → World → Prop} [IsPreorder World R]

theorem pure (v : α) : Ensures R (Pure.pure v : Sim α) := fun w => refl_of R w

theorem bind {x : Sim α} {f : α → Sim β} (hx : Ensures R x) (hf : ∀ v, Ensures R (f v)) :
    Ensures R (x >>= f) := by
  intro w
  rw [run_bind]
  exact trans_of R (hx w) (hf _ _)

theorem forM {f : α → Sim Unit} (hf : ∀ v, Ensures R (f v)) (list : List α) :
    Ensures R (list.forM f) := by
  induction list with
  | nil => exact pure ()
  | cons v rest ih => exact bind (hf v) fun _ => ih

theorem forIn {f : α → β → Sim (ForInStep β)} (hf : ∀ v b, Ensures R (f v b)) (list : List α)
    (b : β) : Ensures R (forIn list b f) := by
  induction list generalizing b with
  | nil => exact pure b
  | cons v rest ih =>
      rw [List.forIn_cons]
      refine bind (hf v b) fun next => ?_
      cases next with
      | done b => exact pure b
      | yield b => exact ih b

theorem mapM {f : α → Sim β} (hf : ∀ v, Ensures R (f v)) (list : List α) :
    Ensures R (list.mapM f) := by
  induction list with
  | nil => exact pure []
  | cons v rest ih =>
      rw [List.mapM_cons]
      exact bind (hf v) fun u => bind ih fun us => pure (u :: us)

theorem optionForM {f : α → Sim Unit} (hf : ∀ v, Ensures R (f v)) (o : Option α) :
    Ensures R (o.forM f) := by
  cases o with
  | none => exact pure ()
  | some v => exact hf v

theorem optionMapM {f : α → Sim β} (hf : ∀ v, Ensures R (f v)) (o : Option α) :
    Ensures R (o.mapM f) := by
  cases o with
  | none => exact pure none
  | some v => exact bind (hf v) fun u => pure (some u)

end Ensures

/-- The action keeps the stores, whatever the world. -/
def Spares (x : Sim α) : Prop := ∀ w, Kept w (x.run w).2

namespace Spares

theorem pure (a : α) : Spares (Pure.pure a : Sim α) := Ensures.pure a

theorem bind {x : Sim α} {f : α → Sim β} (hx : Spares x) (hf : ∀ a, Spares (f a)) :
    Spares (x >>= f) := Ensures.bind hx hf

theorem modify {f : World → World} (h : ∀ w, Kept w (f w)) : Spares (modify f) := h

theorem forM {f : α → Sim Unit} (hf : ∀ a, Spares (f a)) (list : List α) :
    Spares (list.forM f) := Ensures.forM hf list

end Spares

theorem spares_ticket : Spares ticket := fun _ => ⟨rfl, rfl⟩

theorem spares_wakeTask (id : Nat) : Spares (wakeTask id) := by
  apply Spares.modify
  intro w
  split
  · exact .refl w
  · split
    · exact .refl w
    · exact ⟨rfl, rfl⟩
    · split
      · exact ⟨rfl, rfl⟩
      · split
        · exact .refl w
        · exact ⟨rfl, rfl⟩

theorem spares_wakeAll (ts : List Ticket) : Spares (wakeAll ts) :=
  .forM (f := wake) (fun t => spares_wakeTask t.task) ts

theorem spares_writeAll (rs : List Record) : Spares (writeAll rs) := fun _ => ⟨rfl, rfl⟩

theorem spares_isSpent : Spares isSpent := fun w => .refl w

theorem spares_spend (things : Nat) : Spares (spend things) := fun _ => ⟨rfl, rfl⟩

theorem spares_defer : Spares defer := by
  intro w
  simp only [defer, run_bind]
  split
  · exact spares_wakeTask _ w
  · split
    · exact .refl w
    · exact ⟨rfl, rfl⟩

theorem spares_alarmAfter (d : Duration) : Spares (alarmAfter d) := fun _ => ⟨rfl, rfl⟩

/-- Acting on a broker comes to what the action makes of some broker. -/
theorem onBroker_run (index : Nat) (act : Broker Action → Broker Action × α) (w : World) :
    (∃ b, ((onBroker index act).run w).1 = (act b).2) ∧ Kept w ((onBroker index act).run w).2 := by
  simp only [onBroker, run_bind]
  split
  · exact ⟨⟨noBroker, rfl⟩, .refl w⟩
  · rename_i b _
    refine ⟨⟨b, rfl⟩, ?_⟩
    let acted : World := { w with brokers := w.brokers.set! index { (act b).1 with outbox := {} } }
    have hacted : Kept w acted := ⟨rfl, rfl⟩
    have hwritten := spares_writeAll (act b).1.outbox.records acted
    exact (hacted.trans hwritten).trans (spares_wakeAll _ _)

theorem spares_onBroker (index : Nat) (act : Broker Action → Broker Action × α) :
    Spares (onBroker index act) := fun w => (onBroker_run index act w).2

/-- Reading a workspace changes nothing. -/
theorem workspace_run (ws : Nat) (w : World) :
    ((workspace ws).run w).2 = w ∧
      ∀ h, w.workspaces[ws]? = some h → ((workspace ws).run w).1 = h.workspace := by
  simp only [workspace, run_bind]
  split
  · rename_i hnone
    refine ⟨rfl, ?_⟩
    intro h hsome
    cases hnone.symm.trans hsome
  · rename_i h hsome
    refine ⟨rfl, ?_⟩
    intro h' hsome'
    cases hsome.symm.trans hsome'
    rfl

theorem poll_done (n : Nat) {a : Shape} (o : Outcome a.Value) (w : World) :
    (poll n (.done o)).run w = (.done o, w) := by
  cases n <;> rfl

theorem poll_value (n : Nat) {a : Shape} (v : a.Value) (w : World) :
    (poll n (.value v)).run w = (.value v, w) := poll_done n (.returned v) w

theorem poll_begin (n : Nat) {a : Shape} (b : Begin a) (w : World) :
    (poll (n + 1) (.begin b)).run w = (poll n ((begin b).run w).1).run ((begin b).run w).2 := rfl

theorem poll_wait (n : Nat) {a : Shape} (wait : Wait a) (w : World) :
    (poll (n + 1) (.wait wait)).run w =
      match (check wait).run w with
      | (.pending next, w') => (.wait next, w')
      | (.next f, w') => (poll n f).run w' := by
  rw [poll, run_bind]
  generalize (check wait).run w = checked
  obtain ⟨p, w'⟩ := checked
  cases p <;> rfl

/-- A result is handed on at once; without one the computation stays where it
is. -/
theorem poll_bind (n : Nat) {a b : Shape} (inner : Future a) (frame : Frame a b) (w : World) :
    (poll (n + 1) (.bind inner frame)).run w =
      match (poll n inner).run w with
      | (.done o, w') =>
        (poll n ((resume frame o).run w').1).run ((resume frame o).run w').2
      | (f, w') => (.bind f frame, w') := by
  rw [poll, run_bind]
  generalize (poll n inner).run w = polled
  obtain ⟨f, w'⟩ := polled
  cases f <;> rfl

end Sim

/-- A computation ends: the turns are its own, each with the world before and
after, and each as long as it happens to be. -/
inductive Ends {a : Shape} : Future a → List (World × World) → Outcome a.Value → Prop
  | now {f : Future a} {w w' : World} {o : Outcome a.Value} (n : Nat)
      (hturn : (Sim.poll n f).run w = (.done o, w')) : Ends f [(w, w')] o
  | later {f f' : Future a} {w w' : World} {turns : List (World × World)} {o : Outcome a.Value}
      (n : Nat) (hturn : (Sim.poll n f).run w = (f', w')) (hrest : Ends f' turns o) :
      Ends f ((w, w') :: turns) o

/-- As long as a computation is early, its turns keep the stores, and it can only
fail; once it is late, it cannot fail any more. -/
structure Phases {a : Shape} (failure : a.Value) (isResult : a.Value → Prop)
    (early late : Future a → Prop) : Prop where
  poll_early : ∀ n f w, early f →
    (early ((Sim.poll n f).run w).1 ∧ Kept w ((Sim.poll n f).run w).2) ∨
      late ((Sim.poll n f).run w).1
  poll_late : ∀ n f w, late f → late ((Sim.poll n f).run w).1
  early_done : ∀ o, early (.done o) → o = .returned failure
  late_done : ∀ o, late (.done o) → ∃ v, isResult v ∧ o = .returned v

namespace Phases

variable {a b : Shape} {failure : a.Value} {isResult : a.Value → Prop}
  {early late : Future a → Prop}

/-- A failure that is there already. -/
theorem refused (failure : a.Value) (isResult : a.Value → Prop) :
    Phases failure isResult (· = .value failure) fun _ => False where
  poll_early := by
    rintro n _ w rfl
    left
    rw [Sim.poll_value]
    exact ⟨rfl, .refl w⟩
  poll_late _ _ _ h := h
  early_done o h := by
    cases h
    rfl
  late_done _ h := h.elim

/-- A result that is there already. -/
theorem settled (failure : a.Value) {isResult : a.Value → Prop} {v : a.Value}
    (hv : isResult v) : Phases failure isResult (fun _ => False) (· = .value v) where
  poll_early _ _ _ h := h.elim
  poll_late := by
    rintro n _ w rfl
    rw [Sim.poll_value]
  early_done _ h := h.elim
  late_done o h := by
    cases h
    exact ⟨v, hv, rfl⟩

/-- What goes on with a computation has its phases too, if it hands failures on. -/
theorem bind (h : Phases failure isResult early late) (frame : Frame a b) {failure' : b.Value}
    {isResult' : b.Value → Prop}
    (hfailure : ∀ w, (Sim.resume frame (.returned failure)).run w = (.value failure', w))
    (hresult : ∀ v w, isResult v → ∃ v', isResult' v' ∧
      ((Sim.resume frame (.returned v)).run w).1 = .value v') :
    Phases failure' isResult'
      (fun g => (∃ f, early f ∧ g = .bind f frame) ∨ g = .value failure')
      (fun g => (∃ f, late f ∧ g = .bind f frame) ∨ ∃ v, isResult' v ∧ g = .value v) where
  poll_early := by
    rintro n g w (⟨f, hf, rfl⟩ | rfl)
    · cases n with
      | zero => exact Or.inl ⟨Or.inl ⟨f, hf, rfl⟩, .refl w⟩
      | succ n =>
          rw [Sim.poll_bind]
          have hinner := h.poll_early n f w hf
          generalize (Sim.poll n f).run w = polled at hinner
          obtain ⟨f', w'⟩ := polled
          rcases hinner with ⟨hearly, hkept⟩ | hlate
          · left
            cases f' with
            | done o =>
                obtain rfl := h.early_done o hearly
                simp only [hfailure]
                rw [Sim.poll_value]
                exact ⟨Or.inr rfl, hkept⟩
            | _ => exact ⟨Or.inl ⟨_, hearly, rfl⟩, hkept⟩
          · right
            cases f' with
            | done o =>
                obtain ⟨v, hv, rfl⟩ := h.late_done o hlate
                obtain ⟨v', hv', hresume⟩ := hresult v w' hv
                simp only [hresume]
                rw [Sim.poll_value]
                exact Or.inr ⟨v', hv', rfl⟩
            | _ => exact Or.inl ⟨_, hlate, rfl⟩
    · left
      rw [Sim.poll_value]
      exact ⟨Or.inr rfl, .refl w⟩
  poll_late := by
    rintro n g w (⟨f, hf, rfl⟩ | ⟨v, hv, rfl⟩)
    · cases n with
      | zero => exact Or.inl ⟨f, hf, rfl⟩
      | succ n =>
          rw [Sim.poll_bind]
          have hlate := h.poll_late n f w hf
          generalize (Sim.poll n f).run w = polled at hlate
          obtain ⟨f', w'⟩ := polled
          cases f' with
          | done o =>
              obtain ⟨v, hv, rfl⟩ := h.late_done o hlate
              obtain ⟨v', hv', hresume⟩ := hresult v w' hv
              simp only [hresume]
              rw [Sim.poll_value]
              exact Or.inr ⟨v', hv', rfl⟩
          | _ => exact Or.inl ⟨_, hlate, rfl⟩
    · rw [Sim.poll_value]
      exact Or.inr ⟨v, hv, rfl⟩
  early_done o := by
    rintro (⟨f, _, hbind⟩ | hvalue)
    · cases hbind
    · cases hvalue
      rfl
  late_done o := by
    rintro (⟨f, _, hbind⟩ | ⟨v, hv, hvalue⟩)
    · cases hbind
    · cases hvalue
      exact ⟨v, hv, rfl⟩

end Phases

namespace Future

variable {a b : Shape}

/-- The computation fails clean: if it fails, then with this failure, and its turns
have kept the stores. -/
def FailsClean (f : Future a) (failure : a.Value) (isResult : a.Value → Prop) : Prop :=
  ∃ early late, Phases failure isResult early late ∧ early f

/-- The computation cannot fail. -/
def Succeeds (f : Future a) (isResult : a.Value → Prop) : Prop :=
  ∃ failure early late, Phases failure isResult early late ∧ late f

variable {f : Future a} {failure : a.Value} {isResult : a.Value → Prop}

theorem FailsClean.bind (h : f.FailsClean failure isResult) (frame : Frame a b)
    {failure' : b.Value} {isResult' : b.Value → Prop}
    (hfailure : ∀ w, (Sim.resume frame (.returned failure)).run w = (.value failure', w))
    (hresult : ∀ v w, isResult v → ∃ v', isResult' v' ∧
      ((Sim.resume frame (.returned v)).run w).1 = .value v') :
    (Future.bind f frame).FailsClean failure' isResult' := by
  obtain ⟨early, late, hphases, hf⟩ := h
  exact ⟨_, _, hphases.bind frame hfailure hresult, Or.inl ⟨f, hf, rfl⟩⟩

theorem failsClean_value (failure : a.Value) (isResult : a.Value → Prop) :
    (Future.value failure).FailsClean failure isResult :=
  ⟨_, _, .refused failure isResult, rfl⟩

theorem succeeds_value {v : a.Value} (hv : isResult v) : (Future.value v).Succeeds isResult :=
  ⟨v, _, _, .settled v hv, rfl⟩

theorem FailsClean.poll (h : f.FailsClean failure isResult) (n : Nat) (w : World) :
    (((Sim.poll n f).run w).1.FailsClean failure isResult ∧ Kept w ((Sim.poll n f).run w).2) ∨
      ((Sim.poll n f).run w).1.Succeeds isResult := by
  obtain ⟨early, late, hphases, hf⟩ := h
  rcases hphases.poll_early n f w hf with ⟨hearly, hkept⟩ | hlate
  · exact Or.inl ⟨⟨early, late, hphases, hearly⟩, hkept⟩
  · exact Or.inr ⟨failure, early, late, hphases, hlate⟩

theorem Succeeds.poll (h : f.Succeeds isResult) (n : Nat) (w : World) :
    ((Sim.poll n f).run w).1.Succeeds isResult := by
  obtain ⟨failure, early, late, hphases, hf⟩ := h
  exact ⟨failure, early, late, hphases, hphases.poll_late n f w hf⟩

theorem FailsClean.done {o : Outcome a.Value} (h : (Future.done o).FailsClean failure isResult) :
    o = .returned failure := by
  obtain ⟨early, late, hphases, hf⟩ := h
  exact hphases.early_done o hf

theorem Succeeds.done {o : Outcome a.Value} (h : (Future.done o).Succeeds isResult) :
    ∃ v, isResult v ∧ o = .returned v := by
  obtain ⟨failure, early, late, hphases, hf⟩ := h
  exact hphases.late_done o hf

variable {turns : List (World × World)} {o : Outcome a.Value}

theorem Succeeds.ends (h : f.Succeeds isResult) (hends : Ends f turns o) :
    ∃ v, isResult v ∧ o = .returned v := by
  induction hends with
  | @now f w w' o n hturn =>
      have hpoll := h.poll n w
      rw [hturn] at hpoll
      exact hpoll.done
  | @later f f' w w' turns o n hturn _ ih =>
      have hpoll := h.poll n w
      rw [hturn] at hpoll
      exact ih hpoll

/-- A computation that fails clean and ends has a result, or it has failed and kept
the stores in every turn. -/
theorem FailsClean.ends (h : f.FailsClean failure isResult) (hends : Ends f turns o) :
    (∃ v, isResult v ∧ o = .returned v) ∨
      (o = .returned failure ∧ ∀ turn ∈ turns, Kept turn.1 turn.2) := by
  induction hends with
  | @now f w w' o n hturn =>
      have hpoll := h.poll n w
      rw [hturn] at hpoll
      rcases hpoll with ⟨hfails, hkept⟩ | hsucceeds
      · exact Or.inr ⟨hfails.done, by simpa using hkept⟩
      · exact Or.inl hsucceeds.done
  | @later f f' w w' turns o n hturn hrest ih =>
      have hpoll := h.poll n w
      rw [hturn] at hpoll
      rcases hpoll with ⟨hfails, hkept⟩ | hsucceeds
      · rcases ih hfails with hresult | ⟨ho, hturns⟩
        · exact Or.inl hresult
        · exact Or.inr ⟨ho, List.forall_mem_cons.mpr ⟨hkept, hturns⟩⟩
      · exact Or.inl (hsucceeds.ends hrest)

end Future

end EventHub.Simulation
