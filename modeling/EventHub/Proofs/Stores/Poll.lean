import EventHub.Proofs.Stores.Resume
import EventHub.Simulation.Poll

/-!
How far a computation goes, as far as the stores are concerned. One that is no part of
a job's course comes to no such part, and all that it does on the way is acts on the
stores.
-/

namespace EventHub.Simulation.Sim

open EventHub.Script

variable {i : Option Nat} {a : Shape}

/-! ### Leaving the lines -/

theorem does_dropWait (w : Wait a) : Does i (dropWait w) := by
  cases w with
  | registration broker t service stage =>
      exact .bind (does_onBroker _ _) fun orphan => does_discardLater _ _
  | asking broker event call =>
      rw [dropWait]
      exact does_onBroker _ _
  | subscribing broker call =>
      rw [dropWait]
      exact does_onBroker _ _
  | listing broker call =>
      rw [dropWait]
      exact does_onBroker _ _
  | posting broker t service =>
      rw [dropWait]
      exact does_onBroker _ _
  | alarm alarm => exact does_unset _
  | gate name t => exact .modify (fun _ => rfl) fun _ => rfl
  | cancellation job t => exact does_updatePool (.unwatch job t) rfl nofun fun _ => rfl
  | shutdown t =>
      exact .act (fun w => .watch (w.trigger.watchers.erase t)) (fun _ => rfl) fun _ => rfl
  | interruption t =>
      exact .act (fun w => .watch (w.trigger.watchers.erase t)) (fun _ => rfl) fun _ => rfl
  | permit job t body => exact does_updatePool (.unwatch job t) rfl nofun fun _ => rfl
  | drained t => exact does_updatePool (.leaveDrain t) rfl nofun fun _ => rfl
  | jobResult job t => exact does_updatePool (.leaveJoin job t) rfl nofun fun _ => rfl
  | task task t => exact .modify (fun _ => rfl) fun _ => rfl
  | blocking task t => exact .modify (fun _ => rfl) fun _ => rfl
  | _ => exact .pure ()

/-- Giving up a computation is no job's own move, whatever the computation. -/
theorem does_drop (f : Future a) : Does i (drop f) := by
  induction f with
  | wait w => exact does_dropWait w
  | bind inner frame ih => exact .bind ih fun _ => does_dropFrame frame
  | within alarm inner ih => exact .bind ih fun _ => does_unset alarm
  | followed first others ihfirst ihothers => exact .bind ihfirst fun _ => ihothers
  | abandon broker alarm fill inner ih => exact .bind ih fun _ => .optionForM does_unset alarm
  | _ => exact .pure ()

/-! ### Looks at a wait -/

def Polled.isJobless : Polled a → Bool
  | .pending w => w.isJobless
  | .next f => f.isJobless

/-- A look that finds no part of a job's course. -/
def Looks (i : Option Nat) (m : Sim (Polled a)) : Prop := Yields i (fun p => p.isJobless = true) m

theorem looks_of {m : Sim (Future a)} (h : Jobless i m) : Looks i (Polled.of <$> m) := by
  intro w
  obtain ⟨hgoes, hjobless⟩ := h w
  refine ⟨hgoes, ?_⟩
  have hof (f : Future a) (hf : f.isJobless = true) : (Polled.of f).isJobless = true := by
    cases f <;> exact hf
  exact hof _ hjobless

theorem looks_waitUntil {w : Wait a} (hw : w.isJobless = true) (ready : Option a.Value)
    {enter leave : Sim Unit} (henter : Does i enter) (hleave : Does i leave) :
    Looks i (waitUntil w ready enter leave) := by
  cases ready with
  | none => exact .bind henter fun _ => .pure hw
  | some v => exact .bind hleave fun _ => .pure rfl

theorem does_listen (w : Wait a) : Does i (listen w) := by
  rw [listen.eq_def]
  split
  iterate 5 exact does_onBroker _ _
  exact .pure ()

theorem looks_taken (w : Wait a) {p : Polled a} (hp : p.isJobless = true) :
    Looks i (taken w p) := by
  cases p with
  | next f => exact .bind (does_spend 1) fun _ => .pure hp
  | pending next =>
      simp only [taken]
      split
      · refine .bind (does_spend 1) fun _ => .bind does_isSpent fun spent => ?_
        split
        · exact .bind does_defer fun _ => .pure hp
        · exact .bind (does_listen next) fun _ => .pure hp
      · exact .pure hp

theorem looks_take {w : Wait a} (hw : w.isJobless = true) {look : Sim (Polled a)}
    (hlook : Looks i look) : Looks i (take w look) := by
  refine .bind does_isSpent fun spent => ?_
  split
  · exact .bind does_defer fun _ => .pure hw
  · exact .andThen hlook fun p hp => looks_taken w hp

theorem looks_workOff (broker : Nat) : Looks i (workOff broker) := by
  refine .bind .get fun w => .bind (does_onBroker _ _) fun worked => ?_
  obtain ⟨stopped, taken⟩ := worked
  cases stopped with
  | true => exact .pure rfl
  | false =>
      refine .bind (does_spend taken) fun _ => .bind does_isSpent fun spent => ?_
      cases spent with
      | true => exact .bind does_defer fun _ => .pure rfl
      | false => exact .pure rfl

theorem does_watchTrigger (t : Ticket) : Does i (check.watchTrigger t) :=
  .act (fun w => .watch (addOnce w.trigger.watchers t)) (fun _ => rfl) fun _ => rfl

/-- A look at a wait that is no part of a job's course. -/
theorem looks_check {w : Wait a} (hw : w.isJobless = true) : Looks i (check w) := by
  cases w with
  | registration broker t service stage =>
      exact looks_take rfl (looks_of (jobless_registering _ _ _ _))
  | asking broker event call => exact looks_take rfl (looks_of (jobless_dispatching _ _))
  | subscribing broker call => exact looks_take rfl (looks_of (jobless_subscribing _ _))
  | listing broker call => exact looks_take rfl (looks_of (jobless_listing _ _))
  | posting broker t service => exact looks_take rfl (looks_of (jobless_posting _ _ _))
  | commands broker => exact looks_workOff broker
  | alarm alarm =>
      refine looks_take (w := .alarm alarm) rfl (.bind (does_isDue alarm) fun due => ?_)
      cases due <;> exact .pure rfl
  | permit job t body => cases hw
  | taking things t =>
      refine .bind .get fun w => .bind (does_spend things) fun _ => ?_
      split
      · exact .pure rfl
      · exact .bind does_defer fun _ => .pure rfl
  | yielded rounds t =>
      cases rounds with
      | zero => exact .pure rfl
      | succ rounds => exact .bind does_defer fun _ => .pure rfl
  | gate name t =>
      refine .bind .get fun w => looks_waitUntil rfl _ ?_ (does_dropWait _)
      exact .modify (fun _ => rfl) fun _ => rfl
  | cancellation job t =>
      refine .bind .get fun w => looks_waitUntil rfl _ ?_ (does_dropWait _)
      exact does_updatePool (.watch job t) rfl nofun fun _ => rfl
  | shutdown t =>
      exact .bind .get fun w => looks_waitUntil rfl _ (does_watchTrigger t) (does_dropWait _)
  | interruption t =>
      rw [check]
      refine .bind .get fun w => ?_
      split
      · exact .bind (does_dropWait _) fun _ => .pure rfl
      · split
        · exact .bind (does_dropWait _) fun _ => .bind (does_write _) fun _ => .pure rfl
        · exact .bind (does_watchTrigger t) fun _ => .pure rfl
  | drained t =>
      refine .bind .get fun w => looks_waitUntil rfl _ ?_ (does_dropWait _)
      exact does_updatePool (.drain t) rfl nofun fun _ => rfl
  | jobResult job t =>
      refine looks_take (w := .jobResult job t) rfl (.bind .get fun w => ?_)
      refine looks_waitUntil rfl _ ?_ (does_dropWait _)
      exact does_updatePool (.join job t) rfl nofun fun _ => rfl
  | task task t =>
      refine looks_take (w := .task task t) rfl (.bind .get fun w => ?_)
      exact looks_waitUntil rfl _ (.modify (fun _ => rfl) fun _ => rfl) (does_dropWait _)
  | blocking task t =>
      refine looks_take (w := .blocking task t) rfl (.bind .get fun w => ?_)
      exact looks_waitUntil rfl _ (.modify (fun _ => rfl) fun _ => rfl) (does_dropWait _)

/-! ### Polling -/

theorem does_rings (alarm : Alarm) (couldTake : Bool) : Does i (rings alarm couldTake) := by
  refine .bind does_isSpent fun spent => ?_
  split
  · split
    · exact does_isDue alarm
    · exact .bind does_defer fun _ => .pure _
  · refine .bind (does_isDue alarm) fun due => ?_
    split
    · exact .bind (does_spend 1) fun _ => .pure _
    · exact .pure _

/-- Computations that are begun one after another. -/
theorem yields_mapM {α : Type} {f : α → Sim (Future a)} (hf : ∀ v, Jobless i (f v))
    (list : List α) : Yields i (fun fs => ∀ f ∈ fs, f.isJobless = true) (list.mapM f) := by
  induction list with
  | nil => exact .pure fun f hf => by cases hf
  | cons v rest ih =>
      rw [List.mapM_cons]
      refine .andThen (hf v) fun g hg => .andThen ih fun fs hfs => .pure ?_
      intro f hmem
      rcases List.mem_cons.mp hmem with rfl | hrest
      · exact hg
      · exact hfs f hrest

theorem isJobless_foldr_followed {fs : List (Future .result)}
    (h : ∀ f ∈ fs, f.isJobless = true) :
    (fs.foldr Future.followed (.value [])).isJobless = true := by
  induction fs with
  | nil => rfl
  | cons f rest ih =>
      refine Future.isJobless_followed.mpr ⟨h f List.mem_cons_self, ih fun g hg => ?_⟩
      exact h g (List.mem_cons_of_mem _ hg)

theorem does_abandon (broker fill : Nat) (f : Future .handle) :
    Does i (abandon broker fill f) := by
  have hcalls {call : Nat → Sim (Future .handles)} (hcall : ∀ n, Jobless i (call n)) :
      Does i (do
        let calls ← (List.range fill).mapM call
        drop f
        calls.forM drop) :=
    .bind (yields_mapM hcall (List.range fill)).does fun calls =>
      .bind (does_drop f) fun _ => .forM does_drop calls
  rw [abandon]
  refine hcalls fun _ => .bind does_ticket fun t => .andThen (jobless_listing _ _) fun g hg => ?_
  cases g with
  | wait w =>
      refine .andThen (looks_check hg) fun p hp => ?_
      cases p <;> exact .pure hp
  | _ => exact .pure hg

/-- A computation that is no part of a job's course comes to none. -/
theorem jobless_poll (n : Nat) {f : Future a} (hf : f.isJobless = true) : Jobless i (poll n f) := by
  induction n generalizing a f with
  | zero => exact .pure hf
  | succ n ih =>
      cases f with
      | done o => exact .pure rfl
      | begin b =>
          rw [poll]
          exact .andThen (jobless_begin hf) fun g hg => ih hg
      | wait w =>
          rw [poll]
          refine .andThen (looks_check hf) fun p hp => ?_
          cases p with
          | pending next => exact .pure hp
          | next g => exact ih hp
      | bind inner frame =>
          obtain ⟨hinner, hframe⟩ := Future.isJobless_bind.mp hf
          rw [poll]
          refine .andThen (ih hinner) fun inner' hinner' => ?_
          cases inner' with
          | done o => exact .andThen (jobless_resume hframe o) fun g hg => ih hg
          | _ => exact .pure (Future.isJobless_bind.mpr ⟨hinner', hframe⟩)
      | @within c alarm inner =>
          have hlooked {inner' : Future c} (hinner' : inner'.isJobless = true) (couldTake : Bool) :
              Jobless i (do
                if ← rings alarm couldTake then
                  drop inner'
                  unset alarm
                  return .value none
                else return .within alarm inner' : Sim (Future (.maybe c))) := by
            refine .bind (does_rings alarm couldTake) fun isOver => ?_
            split
            · exact .bind (does_drop inner') fun _ => .bind (does_unset alarm) fun _ => .pure rfl
            · exact .pure hinner'
          rw [poll]
          refine .bind does_isSpent fun spent => .andThen (ih hf) fun inner' hinner' => ?_
          cases inner' with
          | done o => cases o <;> exact .bind (does_unset alarm) fun _ => .pure rfl
          | _ => exact hlooked hinner' _
      | followed first others =>
          obtain ⟨hfirst, hothers⟩ := Future.isJobless_followed.mp hf
          rw [poll]
          refine .andThen (ih hfirst) fun first' hfirst' => ?_
          cases first' with
          | done o =>
              cases o with
              | returned r => exact ih ((Future.isJobless_map _).trans hothers)
              | panicked payload => exact .bind (does_drop others) fun _ => .pure rfl
          | _ => exact .pure (Future.isJobless_followed.mpr ⟨hfirst', hothers⟩)
      | raceClose broker context steps =>
          rw [poll]
          refine .andThen (yields_mapM (fun s => ih rfl) steps) fun started hstarted => ?_
          exact .bind (does_onBroker _ _) fun _ => ih (isJobless_foldr_followed hstarted)
      | abandon broker alarm fill inner =>
          have hlooked {inner' : Future .handle} (hinner' : inner'.isJobless = true)
              (isOver : Bool) : Jobless i (do
                if isOver then
                  abandon broker fill inner'
                  return answer (.text "abandoned")
                else return .abandon broker alarm fill inner') := by
            cases isOver with
            | true => exact .bind (does_abandon broker fill inner') fun _ => jobless_answer _
            | false => exact .pure hinner'
          rw [poll]
          refine .andThen (ih hf) fun inner' hinner' => ?_
          cases inner' with
          | done o => exact .bind (.optionForM does_unset alarm) fun _ => jobless_answer _
          | _ =>
              cases alarm with
              | none => exact hlooked hinner' true
              | some alarm => exact .bind (does_rings alarm false) fun _ => hlooked hinner' _

end EventHub.Simulation.Sim
