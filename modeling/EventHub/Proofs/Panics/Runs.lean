import EventHub.Proofs.Simulation.Fire

/-!
Runs of a computation, up to the turn in which it ends. A run of one that hands a result
on is split at the turn in which the inner part ends: up to there the turns are the inner
part's own, and from there on they are those of what goes on with the result. A run that
waits is split at the look that ends the wait, and code under a guard has a run of its
own for as long as the guard has one.
-/

namespace EventHub.Simulation

variable {a b : Shape} {turns own : List (World × World)}

/-- A computation runs until it has ended. Each turn has the world before and after it and
is as long as it happens to be; between them the world may become any other. -/
inductive Runs {a : Shape} : Future a → List (World × World) → Outcome a.Value → Prop
  | last {f : Future a} {w w' : World} {o : Outcome a.Value} (n : Nat)
      (hturn : (Sim.poll n f).run w = (.done o, w')) : Runs f [(w, w')] o
  | turn {f f' : Future a} {w w' : World} {turns : List (World × World)} {o : Outcome a.Value}
      (n : Nat) (hturn : (Sim.poll n f).run w = (f', w')) (hgoes : ∀ o, f' ≠ .done o)
      (hrest : Runs f' turns o) : Runs f ((w, w') :: turns) o

/-- A computation goes on for some turns, and may have ended or not. -/
inductive Advances {a : Shape} : Future a → List (World × World) → Future a → Prop
  | refl (f : Future a) : Advances f [] f
  | turn {f f' f'' : Future a} {w w' : World} {turns : List (World × World)} (n : Nat)
      (hturn : (Sim.poll n f).run w = (f', w')) (hrest : Advances f' turns f'') :
      Advances f ((w, w') :: turns) f''

/-- The turns of a part began in the worlds in which the first turns of the whole did. -/
def Opens (own turns : List (World × World)) : Prop :=
  own.map Prod.fst <+: turns.map Prod.fst

theorem Opens.trans {inner : List (World × World)} (h : Opens inner own) (h' : Opens own turns) :
    Opens inner turns :=
  List.IsPrefix.trans h h'

theorem opens_head (w v v' : World) (turns : List (World × World)) :
    Opens [(w, v)] ((w, v') :: turns) := by
  simp [Opens]

theorem Runs.goes {f : Future a} {o : Outcome a.Value} (h : Runs f turns o) :
    Advances f turns (.done o) := by
  induction h with
  | last n hturn => exact .turn n hturn (.refl _)
  | turn n hturn _ _ ih => exact .turn n hturn ih

namespace Runs

variable {f : Future a} {o : Outcome a.Value}

/-- What every turn keeps, the end shows. -/
theorem keeps {inv : Future a → Prop} (hpoll : ∀ n f w, inv f → inv ((Sim.poll n f).run w).1)
    (h : Runs f turns o) (hf : inv f) : inv (.done o) := by
  induction h with
  | @last f w w' o n hturn =>
      have hturned := hpoll n f w hf
      rw [hturn] at hturned
      exact hturned
  | @turn f f' w w' turns o n hturn _ _ ih =>
      have hturned := hpoll n f w hf
      rw [hturn] at hturned
      exact ih hturned

/-- A computation that is early until, in the midst of a turn, it goes on as a late one
ends early, or in a run of the late one. That run's turns are the last ones. -/
theorem reaches (early late : Future a → Prop)
    (hpoll : ∀ n f w, early f → early ((Sim.poll n f).run w).1 ∨
      ∃ n' f' w', late f' ∧ (Sim.poll n f).run w = (Sim.poll n' f').run w')
    (h : Runs f turns o) (hf : early f) :
    early (.done o) ∨ ∃ f' rest, late f' ∧ Runs f' rest o ∧
      rest.map Prod.snd <:+ turns.map Prod.snd := by
  induction h with
  | @last f w w' o n hturn =>
      rcases hpoll n f w hf with hearly | ⟨n', f', v, hlate, hgoes⟩
      · rw [hturn] at hearly
        exact Or.inl hearly
      · exact Or.inr ⟨f', [(v, w')], hlate, .last n' (hgoes.symm.trans hturn), List.suffix_rfl⟩
  | @turn f f' w w' turns o n hturn hgoes hrest ih =>
      rcases hpoll n f w hf with hearly | ⟨n', g, v, hlate, hpolled⟩
      · rw [hturn] at hearly
        rcases ih hearly with hdone | ⟨g, rest, hlate, hruns, hlast⟩
        · exact Or.inl hdone
        · exact Or.inr ⟨g, rest, hlate, hruns, hlast.trans (List.suffix_cons w' _)⟩
      · exact Or.inr ⟨g, (v, w') :: turns, hlate,
          .turn n' (hpolled.symm.trans hturn) hgoes hrest, List.suffix_rfl⟩

/-- What has ended has a last turn, which changes nothing. -/
theorem of_done {own : Outcome a.Value} (h : Runs (.done own) turns o) :
    o = own ∧ ∃ w, turns = [(w, w)] := by
  cases h with
  | @last _ w w' o n hturn =>
      rw [Sim.poll_done] at hturn
      cases hturn
      exact ⟨rfl, w, rfl⟩
  | @turn _ f' w w' turns o n hturn hgoes hrest =>
      rw [Sim.poll_done] at hturn
      cases hturn
      exact absurd rfl (hgoes own)

/-- The turn in which a computation starts; the ones before have no room for that. -/
theorem of_begin {start : Begin a} (h : Runs (.begin start) turns o) :
    ∃ before w w' rest, turns = before ++ (w, w') :: rest ∧
      Runs ((Sim.begin start).run w).1 ((((Sim.begin start).run w).2, w') :: rest) o := by
  generalize hf : Future.begin start = f at h
  induction h with
  | @last f w w' o n hturn =>
      subst hf
      cases n with
      | zero => cases hturn
      | succ n =>
          rw [Sim.poll_begin] at hturn
          exact ⟨[], w, w', [], rfl, .last n hturn⟩
  | @turn f f' w w' turns o n hturn hgoes hrest ih =>
      subst hf
      cases n with
      | zero =>
          cases hturn
          obtain ⟨before, v, v', rest, hturns, hruns⟩ := ih rfl
          exact ⟨(w, w) :: before, v, v', rest, by rw [hturns]; rfl, hruns⟩
      | succ n =>
          rw [Sim.poll_begin] at hturn
          exact ⟨[], w, w', turns, rfl, .turn n hturn hgoes hrest⟩

/-- The inner part has a run of its own, and its frame goes on with the result in the midst
of the turn in which it ends. -/
theorem of_bind {inner : Future a} {frame : Frame a b} {o : Outcome b.Value}
    (h : Runs (.bind inner frame) turns o) :
    ∃ own ended v w' rest, Runs inner own ended ∧ Opens own turns ∧
      Runs ((Sim.resume frame ended).run v).1
        ((((Sim.resume frame ended).run v).2, w') :: rest) o ∧
      (w' :: rest.map Prod.snd) <:+ turns.map Prod.snd := by
  generalize hf : Future.bind inner frame = f at h
  induction h generalizing inner with
  | @last f w w' o n hturn =>
      subst hf
      cases n with
      | zero => cases hturn
      | succ n =>
          rw [Sim.poll_bind] at hturn
          cases hinner : (Sim.poll n inner).run w with
          | mk g v =>
              rw [hinner] at hturn
              cases g with
              | done ended =>
                  exact ⟨[(w, v)], ended, v, w', [], .last n hinner, opens_head w v w' [],
                    .last n hturn, List.suffix_rfl⟩
              | _ => cases hturn
  | @turn f f' w w' turns o n hturn hgoes hrest ih =>
      subst hf
      -- The inner part goes on in this turn, or had ended before.
      have hlater {inner' : Future a} (n : Nat) {v : World}
          (hinner : (Sim.poll n inner).run w = (inner', v)) (hf' : f' = .bind inner' frame) :
          ∃ own ended v w₁ rest, Runs inner own ended ∧ Opens own ((w, w') :: turns) ∧
            Runs ((Sim.resume frame ended).run v).1
              ((((Sim.resume frame ended).run v).2, w₁) :: rest) o ∧
            (w₁ :: rest.map Prod.snd) <:+ ((w, w') :: turns).map Prod.snd := by
        obtain ⟨own, ended, v₁, w₁, rest, hown, hopens, hruns, hlast⟩ := ih hf'.symm
        have hlast := hlast.trans (List.suffix_cons w' _)
        by_cases hdone : ∃ o, inner' = .done o
        · obtain ⟨o, rfl⟩ := hdone
          obtain ⟨rfl, -⟩ := hown.of_done
          exact ⟨[(w, v)], ended, v₁, w₁, rest, .last n hinner, opens_head w v w' turns,
            hruns, hlast⟩
        · have hgoes (o : Outcome a.Value) (hinner' : inner' = .done o) : False :=
            hdone ⟨o, hinner'⟩
          exact ⟨(w, v) :: own, ended, v₁, w₁, rest, .turn n hinner hgoes hown,
            (List.prefix_cons_inj w).mpr hopens, hruns, hlast⟩
      cases n with
      | zero =>
          cases hturn
          exact hlater 0 rfl rfl
      | succ n =>
          rw [Sim.poll_bind] at hturn
          cases hinner : (Sim.poll n inner).run w with
          | mk g v =>
              rw [hinner] at hturn
              cases g with
              | done ended =>
                  exact ⟨[(w, v)], ended, v, w', turns, .last n hinner, opens_head w v w' turns,
                    .turn n hturn hgoes hrest, List.suffix_rfl⟩
              | _ =>
                  cases hturn
                  exact hlater n hinner rfl

/-- The look that ends a wait, which may have become another of its kind before. -/
theorem of_wait {among : Wait a → Prop} {wait : Wait a}
    (hpending : ∀ wait w next, among wait →
      ((Sim.check wait).run w).1 = .pending next → among next)
    (h : Runs (.wait wait) turns o) (hwait : among wait) :
    ∃ last before w w' rest f, among last ∧ turns = before ++ (w, w') :: rest ∧
      ((Sim.check last).run w).1 = .next f ∧
      Runs f ((((Sim.check last).run w).2, w') :: rest) o := by
  generalize hf : Future.wait wait = f at h
  induction h generalizing wait with
  | @last f w w' o n hturn =>
      subst hf
      cases n with
      | zero => cases hturn
      | succ n =>
          rw [Sim.poll_wait] at hturn
          cases hchecked : (Sim.check wait).run w with
          | mk p v =>
              rw [hchecked] at hturn
              cases p with
              | pending next => cases hturn
              | next f =>
                  refine ⟨wait, [], w, w', [], f, hwait, rfl, congrArg Prod.fst hchecked, ?_⟩
                  rw [hchecked]
                  exact .last n hturn
  | @turn f f' w w' turns o n hturn hgoes hrest ih =>
      subst hf
      have hlater {next : Wait a} (hnext : among next) (hf' : f' = .wait next) :
          ∃ last before w₁ w₁' rest f, among last ∧
            (w, w') :: turns = before ++ (w₁, w₁') :: rest ∧
            ((Sim.check last).run w₁).1 = .next f ∧
            Runs f ((((Sim.check last).run w₁).2, w₁') :: rest) o := by
        obtain ⟨last, before, w₁, w₁', rest, f, hlast, hturns, hnext, hruns⟩ := ih hnext hf'.symm
        exact ⟨last, (w, w') :: before, w₁, w₁', rest, f, hlast, by rw [hturns]; rfl, hnext, hruns⟩
      cases n with
      | zero =>
          cases hturn
          exact hlater hwait rfl
      | succ n =>
          rw [Sim.poll_wait] at hturn
          cases hchecked : (Sim.check wait).run w with
          | mk p v =>
              rw [hchecked] at hturn
              cases p with
              | pending next =>
                  cases hturn
                  exact hlater (hpending wait w next hwait (congrArg Prod.fst hchecked)) rfl
              | next f =>
                  refine ⟨wait, [], w, w', turns, f, hwait, rfl, congrArg Prod.fst hchecked, ?_⟩
                  rw [hchecked]
                  exact .turn n hturn hgoes hrest

end Runs

/-! ### Code under a guard -/

/-- Code that is given up at the alarm, if there is one. -/
def Future.guarded (alarm : Option Alarm) (code : Future a) : Future (.maybe a) :=
  match alarm with
  | none => code.map some
  | some alarm => .within alarm code

/-- What a guard makes of the code that it finds in this state when it ends. -/
def Future.given : Future a → Outcome (Option a.Value)
  | .done (.returned v) => .returned (some v)
  | .done (.panicked payload) => .panicked payload
  | _ => .returned none

/-- What one turn makes of a guard: it hands on what the code has come to, or gives the code
up if there is an alarm, or goes on. -/
def Guards (alarm : Option Alarm) (code' : Future a) (guard : Future (.maybe a)) : Prop :=
  (guard = .done code'.given ∧ (alarm = none → ∃ o, code' = .done o)) ∨
    ((∀ o, code' ≠ .done o) ∧ guard = code'.guarded alarm)

namespace Sim

theorem resume_some (ended : Outcome a.Value) (w : World) :
    (resume (.map (a := a) (b := .maybe a) some) ended).run w =
      (.done (Future.done ended).given, w) := by
  cases ended with
  | returned v =>
      rw [resume]
      rfl
  | panicked payload => rfl

theorem guards_map_some (n : Nat) (code : Future a) (w : World) :
    Guards none ((poll n code).run w).1 ((poll (n + 1) (code.guarded none)).run w).1 := by
  rw [Future.guarded, Future.map, poll_bind]
  cases hcode : (poll n code).run w with
  | mk code' v =>
      cases code' with
      | done ended =>
          dsimp only
          rw [resume_some, poll_done]
          exact Or.inl ⟨rfl, fun _ => ⟨ended, rfl⟩⟩
      | _ => exact Or.inr ⟨fun _ h => (by cases h), rfl⟩

theorem guards_within (n : Nat) (alarm : Alarm) (code : Future a) (w : World) :
    Guards (some alarm) ((poll n code).run w).1
      ((poll (n + 1) (code.guarded (some alarm))).run w).1 := by
  have hspent : (isSpent.run w).2 = w := rfl
  rw [Future.guarded, poll]
  simp only [run_bind, hspent]
  generalize (isSpent.run w).1 = spent
  generalize (poll n code).run w = polled
  obtain ⟨code', v⟩ := polled
  -- Code that has not ended is given up if the alarm rings.
  have hrung {code' : Future a} (rang : Bool × World) (hgoes : ∀ o, code' ≠ .done o)
      (hgiven : code'.given = .returned none) :
      Guards (some alarm) code' ((if rang.1 then drop code' >>= fun _ => unset alarm >>= fun _ =>
        pure (Future.value none)
        else pure (.within alarm code') : Sim (Future (.maybe a))).run rang.2).1 := by
    cases rang with
    | mk isOver v' =>
        cases isOver with
        | true =>
            rw [Guards, hgiven]
            exact Or.inl ⟨rfl, fun h => (by cases h)⟩
        | false => exact Or.inr ⟨hgoes, rfl⟩
  cases code' with
  | done ended => cases ended <;> exact Or.inl ⟨rfl, fun h => (by cases h)⟩
  | _ => exact hrung ((rings alarm (!spent)).run v) (fun _ h => (by cases h)) rfl

theorem guards_poll (n : Nat) (alarm : Option Alarm) (code : Future a) (w : World) :
    Guards alarm ((poll n code).run w).1 ((poll (n + 1) (code.guarded alarm)).run w).1 := by
  cases alarm with
  | none => exact guards_map_some n code w
  | some alarm => exact guards_within n alarm code w

end Sim

theorem Future.guarded_ne_done (alarm : Option Alarm) (code : Future a)
    (o : Outcome (Option a.Value)) : code.guarded alarm ≠ .done o := by
  cases alarm <;> exact fun h => (by cases h)

/-- Code under a guard runs for as long as the guard does, and the guard hands on what the
code has come to. Without an alarm the code has ended by then. -/
theorem Runs.of_guarded {code : Future a} {alarm : Option Alarm} {o : Outcome (Option a.Value)}
    (h : Runs (code.guarded alarm) turns o) :
    ∃ own code', Advances code own code' ∧ own.map Prod.fst = turns.map Prod.fst ∧
      o = code'.given ∧ (alarm = none → ∃ ended, code' = .done ended) := by
  generalize hf : code.guarded alarm = f at h
  induction h generalizing code with
  | @last f w w' o n hturn =>
      subst hf
      cases n with
      | zero => exact absurd (congrArg Prod.fst hturn) (code.guarded_ne_done alarm o)
      | succ n =>
          have hguards := Sim.guards_poll n alarm code w
          rw [hturn] at hguards
          rcases hguards with ⟨hdone, hended⟩ | ⟨-, hguarded⟩
          · cases hdone
            exact ⟨[(w, _)], _, .turn n rfl (.refl _), rfl, rfl, hended⟩
          · exact absurd hguarded.symm (Future.guarded_ne_done alarm _ o)
  | @turn f f' w w' turns o n hturn hgoes _ ih =>
      subst hf
      have hlater {code' : Future a} {v : World} (n : Nat)
          (hcode : (Sim.poll n code).run w = (code', v)) (hf' : code'.guarded alarm = f') :
          ∃ own code', Advances code own code' ∧
            own.map Prod.fst = ((w, w') :: turns).map Prod.fst ∧
            o = code'.given ∧ (alarm = none → ∃ ended, code' = .done ended) := by
        obtain ⟨own, last, hown, hturns, ho, hended⟩ := ih hf'
        exact ⟨(w, v) :: own, last, .turn n hcode hown, by simp [hturns], ho, hended⟩
      cases n with
      | zero => exact hlater 0 rfl (congrArg Prod.fst hturn)
      | succ n =>
          have hguards := Sim.guards_poll n alarm code w
          rw [hturn] at hguards
          rcases hguards with ⟨hdone, -⟩ | ⟨-, hguarded⟩
          · exact absurd hdone (hgoes _)
          · exact hlater n rfl hguarded.symm

end EventHub.Simulation
