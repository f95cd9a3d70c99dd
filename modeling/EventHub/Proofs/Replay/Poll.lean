import EventHub.Proofs.Replay.Check

/-!
A computation that is polled goes on as far as it can. However far that is, the tickets
it holds in the end are those that the traffic says it holds.
-/

namespace EventHub.Simulation.Sim

open EventHub.Script

variable {k i : Nat} {a : Shape}

/-- What several computations hold, the first one's tickets first. -/
def HoldsAll (k : Nat) (x : Traffic Action) : List (Future a) → List Ticket → Prop
  | [], ts => ts = []
  | f :: rest, ts => ∃ ti tf, ts = ti ++ tf ∧ f.Holds k x ti ∧ HoldsAll k x rest tf

theorem local_all (fs : List (Future a)) : Held.Local fun x => HoldsAll k x fs := by
  induction fs with
  | nil => exact Held.local_none
  | cons f rest ih => exact (Held.local_future k f).sep ih

theorem holds_foldr_followed {x : Traffic Action} (fs : List (Future .result)) {ts : List Ticket}
    (h : HoldsAll k x fs ts) : (fs.foldr Future.followed (.value [])).Holds k x ts := by
  induction fs generalizing ts with
  | nil => exact h
  | cons f rest ih =>
      obtain ⟨ti, tf, rfl, hti, htf⟩ := h
      exact ⟨ti, tf, rfl, hti, ih htf⟩

/-- Computations that are begun one after another. -/
theorem plays_mapM {α : Type} {f : α → Sim (Future a)}
    (hf : ∀ v, Plays k i .none (f v) fun f x => f.Holds k x) (list : List α) :
    Plays k i .none (list.mapM f) fun fs x => HoldsAll k x fs := by
  induction list with
  | nil => exact .pure fun _ _ h => h
  | cons v rest ih =>
      rw [List.mapM_cons]
      refine .bind (hf v) fun g => ?_
      have hrest := (ih.frame (Held.local_future k g)).weaken
        (R := fun x => g.Holds k x) fun x ts h => ⟨[], ts, rfl, rfl, h⟩
      refine .bind (hrest.settle (R := fun gs x => HoldsAll k x (g :: gs)) ?_) fun gs => ?_
      · exact fun _ _ _ h => Held.sep_comm h
      · exact .pure fun _ _ h => h

theorem plays_forM_drop (fs : List (Future a)) :
    Plays k i (fun x => HoldsAll k x fs) (fs.forM drop) fun _ => .none := by
  induction fs with
  | nil => exact .pure fun _ _ h => h
  | cons f rest ih =>
      refine .bind ((plays_drop f).frame (local_all rest)) fun _ => ?_
      exact ih.weaken fun _ _ => Held.none_sep

theorem calms_rings (alarm : Alarm) (couldTake : Bool) : Calms k (rings alarm couldTake) := by
  refine .bind calms_isSpent fun spent => ?_
  split
  · split
    · exact calms_isDue alarm
    · exact .bind calms_defer fun _ => .pure _
  · refine .bind (calms_isDue alarm) fun due => ?_
    split
    · exact .bind (calms_spend 1) fun _ => .pure _
    · exact .pure _

/-- A registration is given up amid calls that fill the mailbox. -/
theorem plays_abandon (j fill : Nat) (f : Future .handle) :
    Plays k i (fun x => f.Holds k x) (abandon j fill f) fun _ => .none := by
  have hcalls {call : Nat → Sim (Future .handles)}
      (hcall : ∀ n, Plays k i .none (call n) fun f x => f.Holds k x) :
      Plays k i (fun x => f.Holds k x) (do
        let calls ← (List.range fill).mapM call
        drop f
        calls.forM drop) fun _ => .none := by
    have hmade := ((plays_mapM hcall (List.range fill)).frame (Held.local_future k f)).weaken
      (R := fun x => f.Holds k x) fun x ts h => ⟨[], ts, rfl, rfl, h⟩
    refine .bind (hmade.settle (R := fun fs => Held.sep (fun x => f.Holds k x)
      fun x => HoldsAll k x fs) fun _ _ _ h => Held.sep_comm h) fun fs => ?_
    refine .bind ((plays_drop f).frame (local_all fs)) fun _ => ?_
    exact (plays_forM_drop fs).weaken fun _ _ => Held.none_sep
  rw [abandon]
  refine hcalls fun _ => .bind plays_ticket fun t => .bind (plays_list j t) fun f => ?_
  cases f with
  | wait w =>
      refine .bind (plays_check w) fun p => ?_
      cases p <;> exact .pure fun _ _ h => h
  | _ => exact .pure fun _ _ h => h

/-- A computation goes on as far as it can, with the tickets that it holds. -/
theorem plays_poll (n : Nat) (f : Future a) :
    Plays k i (fun x => f.Holds k x) (poll n f) fun f x => f.Holds k x := by
  induction n generalizing a f with
  | zero => exact .pure fun _ _ h => h
  | succ n ih =>
      cases f with
      | done o => exact .pure fun _ _ h => h
      | begin b =>
          rw [poll]
          intro x ts w h hholds hown
          refine Plays.bind (P := .none) ?_ (fun f => ih f) x ts w h hholds.2 hown
          exact plays_begin b hholds.1
      | wait w =>
          rw [poll]
          refine .bind (plays_check w) fun p => ?_
          cases p with
          | pending next => exact .pure fun _ _ h => h
          | next f => exact ih f
      | bind inner frame =>
          rw [poll]
          refine .bind ((ih inner).frame (Held.local_frame k frame)) fun inner' => ?_
          cases inner' with
          | done o =>
              refine .bind ((plays_resume frame o).weaken fun _ _ => Held.none_sep) fun f => ih f
          | _ => exact .pure fun _ _ h => h
      | @within c alarm inner =>
          have hunset : Plays k i .none (unset alarm) fun _ => .none :=
            .calm (calms_unset alarm) Held.local_none
          have hlooked (inner' : Future c) (couldTake : Bool) :
              Plays k i (fun x => inner'.Holds k x) (do
                if ← rings alarm couldTake then
                  drop inner'
                  unset alarm
                  return .value none
                else return .within alarm inner' : Sim (Future (.maybe c)))
                fun f x => f.Holds k x := by
            refine .bind (.calm (calms_rings alarm couldTake) (Held.local_future k inner'))
              fun isOver => ?_
            split
            · exact .bind (plays_drop inner') fun _ => .bind hunset fun _ => .quit (.value _)
            · exact .pure fun _ _ h => h
          rw [poll]
          refine .bind (.calm calms_isSpent (Held.local_future k inner)) fun spent => ?_
          refine .bind (ih inner) fun inner' => ?_
          cases inner' with
          | done o =>
              cases o with
              | returned v => exact .bind hunset fun _ => .quit (.value _)
              | panicked payload => exact .bind hunset fun _ => .quit (.panic _)
          | _ => exact hlooked _ _
      | followed first others =>
          rw [poll]
          refine .bind ((ih first).frame (Held.local_future k others)) fun first' => ?_
          cases first' with
          | done o =>
              cases o with
              | returned r =>
                  refine (ih _).weaken fun x ts h => ?_
                  exact Held.sep_none (Held.none_sep h)
              | panicked payload =>
                  refine .bind ((plays_drop others).weaken fun _ _ => Held.none_sep) fun _ => ?_
                  exact .quit (.panic _)
          | _ => exact .pure fun _ _ h => h
      | raceClose j context steps =>
          rw [poll]
          have hbegin (s : Step) : Plays k i .none (poll n (.begin (.step context s)))
              fun f x => f.Holds k x :=
            (ih _).weaken fun x ts h => ⟨by simp [Begin.discardsAt?], h⟩
          refine .bind (plays_mapM hbegin steps) fun started => ?_
          refine .bind (plays_close j (local_all started)) fun _ => ?_
          exact (ih _).weaken fun x ts h => holds_foldr_followed started h
      | abandon j alarm fill inner =>
          have hunset : Plays k i .none (alarm.forM unset) fun _ => .none :=
            .calm (.optionForM calms_unset alarm) Held.local_none
          have hlooked (inner' : Future .handle) (isOver : Bool) :
              Plays k i (fun x => inner'.Holds k x) (do
                if isOver then
                  abandon j fill inner'
                  return answer (.text "abandoned")
                else return .abandon j alarm fill inner') fun f x => f.Holds k x := by
            cases isOver with
            | true => exact .bind (plays_abandon j fill inner') fun _ => .tame (tame_answer _)
            | false => exact .pure fun _ _ h => h
          rw [poll]
          refine .bind (ih inner) fun inner' => ?_
          cases inner' with
          | done o => exact .bind hunset fun _ => .tame (tame_answer _)
          | _ =>
              cases alarm with
              | none => exact hlooked _ true
              | some alarm =>
                  exact .bind (.calm (calms_rings alarm false) (Held.local_future k _)) (hlooked _)

end EventHub.Simulation.Sim
