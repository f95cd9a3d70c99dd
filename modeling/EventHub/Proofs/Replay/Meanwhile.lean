import EventHub.Proofs.Replay.Poll
import EventHub.Proofs.Simulation.Performs
import EventHub.Proofs.Traffic.Later

/-!
Calls at a broker, among the others. While a call rests the others go on at the broker as well,
but what it holds there stays as it is. So whoever knows where a call stands when it rests knows
that when it goes on, and in the end where it has come to.
-/

namespace EventHub.Simulation

/-- The world replays the traffic while task `i` runs, and this is what the task holds. -/
def Holding (k i : Nat) (P : Held) (x : Traffic Action) (w : World) : Prop :=
  Replays k (some i) x w ∧ ∃ ts, P x ts ∧ Owns i w ts

/-- The world has gone on with its traffic, and this is what the task holds then. -/
def Arrives (k i : Nat) (x : Traffic Action) (v w : World) (P : Held) : Prop :=
  ∃ x', Holding k i P x' w ∧ Onward k x v x' w ∧ v.serial ≤ w.serial

/-- While a task that holds this rests, the others may go on in any way that leaves it alone. -/
def Meanwhile (k i : Nat) (P : Held) (v w : World) : Prop :=
  ∀ x ts, Replays k (some i) x v → P x ts → Owns i v ts →
    ∃ x', Replays k (some i) x' w ∧ Onward k x v x' w ∧ v.serial ≤ w.serial ∧
      ∀ t ∈ ts, x'.tasks t = x.tasks t

/-- While a computation rests that holds what it holds, and its task something else besides. -/
abbrev Beside {a : Shape} (k i : Nat) (F : Held) (f : Future a) : World → World → Prop :=
  Meanwhile k i (Held.sep (fun x => f.Holds k x) F)

variable {a : Shape} {k i : Nat} {P Q : Held} {x x' : Traffic Action} {u v w : World}

theorem Onward.later {running : Option Nat} (h : Onward k x v x' w) (hx : Replays k running x v)
    {b : Broker Action} (hb : v.brokers[k]? = some b) : Traffic.Later x x' := by
  obtain ⟨-, -, config, worker, moves, rfl⟩ := hx.found b hb
  obtain ⟨-, later, rfl⟩ := h b hb
  exact ⟨config, worker, moves, later, rfl, rfl⟩

theorem Meanwhile.refl (P : Held) (w : World) : Meanwhile k i P w w := fun x _ h _ _ =>
  ⟨x, h, .refl x w, Nat.le_refl _, fun _ _ => rfl⟩

theorem Meanwhile.weaken (h : Meanwhile k i P v w) (hQ : ∀ x ts, Q x ts → P x ts) :
    Meanwhile k i Q v w := fun x ts hx hts hown => h x ts hx (hQ x ts hts) hown

theorem Beside.inner {b : Shape} {F : Held} {f : Future a} {frame : Frame a b}
    (h : Beside k i F (.bind f frame) v w) (hframe : ∀ x, frame.Holds k x []) :
    Beside k i F f v w := by
  refine Meanwhile.weaken h ?_
  rintro x _ ⟨ti, tf, rfl, hti, htf⟩
  exact ⟨ti, tf, rfl, ⟨ti, [], by simp, hti, hframe x⟩, htf⟩

theorem Holding.mono (h : Holding k i P x w) (hQ : ∀ ts, P x ts → Q x ts) : Holding k i Q x w := by
  obtain ⟨hx, ts, hts, hown⟩ := h
  exact ⟨hx, ts, hQ ts hts, hown⟩

namespace Arrives

theorem refl (h : Holding k i P x w) : Arrives k i x w w P := ⟨x, h, .refl x w, Nat.le_refl _⟩

theorem mono (h : Arrives k i x v w P) (hQ : ∀ x ts, P x ts → Q x ts) : Arrives k i x v w Q := by
  obtain ⟨x', hx', hgoes⟩ := h
  exact ⟨x', hx'.mono fun ts => hQ x' ts, hgoes⟩

theorem after (h : Arrives k i x' v w P) (honward : Onward k x u x' v)
    (hserial : u.serial ≤ v.serial) : Arrives k i x u w P := by
  obtain ⟨x'', hx'', honward', hserial'⟩ := h
  exact ⟨x'', hx'', honward.trans honward', Nat.le_trans hserial hserial'⟩

end Arrives

/-- The task takes up what it has left. -/
theorem Meanwhile.arrives (h : Meanwhile k i P v w) (hP : P.Local) (hx : Holding k i P x v) :
    Arrives k i x v w P := by
  obtain ⟨hx, ts, hts, hown⟩ := hx
  obtain ⟨x', hx', honward, hserial, htasks⟩ := h x ts hx hts hown
  exact ⟨x', ⟨hx', ts, hP hts htasks, hown.mono hserial⟩, honward, hserial⟩

theorem Sim.Plays.arrives {α : Type} {m : Sim α} {Q : α → Held} (h : Sim.Plays k i P m Q)
    (hx : Holding k i P x w) : Arrives k i x w (m.run w).2 (Q (m.run w).1) := by
  obtain ⟨hx, ts, hts, hown⟩ := hx
  obtain ⟨x', ts', hgoes, hQ, hown', -⟩ := h x ts w hx hts hown
  exact ⟨x', ⟨hgoes.replays, ts', hQ, hown'⟩, hgoes.onward, hgoes.serial⟩

/-- A call begins with a ticket that the traffic does not know yet. -/
theorem Holding.ticket (hP : P.Local) (hx : Holding k i P x w) :
    ∃ y ts, Replays k (some i) y (Sim.ticket.run w).2 ∧ P y ts ∧
      y.tasks ⟨w.current, w.serial⟩ = none ∧
      Owns i (Sim.ticket.run w).2 ([⟨w.current, w.serial⟩] ++ ts) ∧
      Onward k x w y (Sim.ticket.run w).2 ∧ w.serial ≤ (Sim.ticket.run w).2.serial := by
  obtain ⟨y, ⟨hy, _, ⟨_, ts, rfl, ⟨rfl, hnone⟩, hts⟩, hown⟩, honward, hserial⟩ :=
    (Sim.plays_ticket.frame hP).arrives (hx.mono fun ts hts => ⟨[], ts, rfl, rfl, hts⟩)
  exact ⟨y, ts, hy, hts, hnone, hown, honward, hserial⟩

namespace Performs

variable {least : Nat} {f : Future a} {turns : List (World × World)} {o : Outcome a.Value}
  {P : Future a → Held}

/-- What a turn keeps track of, and the others leave alone, is known at the end. -/
theorem arrives (hlocal : ∀ f, (P f).Local)
    (hpoll : ∀ n f, Sim.Plays k i (P f) (Sim.poll n f) P)
    (h : Performs (fun f => Meanwhile k i (P f)) least v f turns o) (hx : Holding k i (P f) x v)
    {last : World} (hlast : turns.getLast?.map Prod.snd = some last) :
    Arrives k i x v last (P (.done o)) := by
  induction h generalizing x with
  | @last v f w w' o n hsince _ hturn =>
      obtain ⟨x', hx', honward, hserial⟩ := hsince.arrives (hlocal f) hx
      have hturned := (hpoll n f).arrives hx'
      rw [hturn] at hturned
      cases hlast
      exact hturned.after honward hserial
  | @turn v f f' w w' turns o n hsince _ hturn _ hrest ih =>
      obtain ⟨x', hx', honward, hserial⟩ := hsince.arrives (hlocal f) hx
      obtain ⟨x'', hx'', honward', hserial'⟩ := (hpoll n f).arrives hx'
      rw [hturn] at hx'' honward' hserial'
      have hlast' : turns.getLast?.map Prod.snd = some last := by
        cases hrest <;> simpa using hlast
      exact ((ih hx'' hlast').after honward' hserial').after honward hserial

/-- A call begins in its first turn, with what its task held when it was made. -/
theorem begins {F : Held} (hF : F.Local) {start : Begin a}
    (h : Performs (Beside k i F) (least + 1) v (.begin start) turns o)
    (hplain : ∀ x, (Future.begin start).Holds k x [])
    (hfound : ∃ b, v.brokers[k]? = some b) (hx : Holding k i F x v) :
    ∃ w w' rest, turns = (w, w') :: rest ∧
      Performs (Beside k i F) least ((Sim.begin start).run w).2 ((Sim.begin start).run w).1
        ((((Sim.begin start).run w).2, w') :: rest) o ∧
      ∃ x' b, Holding k i F x' w ∧ w.brokers[k]? = some b ∧ Onward k x v x' w ∧
        Traffic.Later x x' ∧ v.serial ≤ w.serial := by
  obtain ⟨w, w', rest, rfl, hsince, hbegun⟩ := h.of_begin fun _ _ => .refl _ _
  have hsince : Meanwhile k i F v w :=
    Meanwhile.weaken hsince fun x ts hts => ⟨[], ts, rfl, hplain x, hts⟩
  obtain ⟨x', hx', honward, hserial⟩ := hsince.arrives hF hx
  obtain ⟨b, hb⟩ := hfound
  obtain ⟨⟨b', hb'⟩, -⟩ := honward b hb
  exact ⟨w, w', rest, rfl, hbegun, x', b', hx', hb', honward, honward.later hx.1 hb, hserial⟩

/-- The look that ends a wait, with the traffic that it finds. -/
theorem of_look {between : Future a → World → World → Prop} (hrefl : ∀ f w, between f w w)
    (hbetween : ∀ wait v w, between (.wait wait) v w → Meanwhile k i (P (.wait wait)) v w)
    (hlocal : ∀ f, (P f).Local)
    (hcheck : ∀ wait, Sim.Plays k i (P (.wait wait)) (Sim.check wait) fun p => P p.future)
    {wait : Wait a} {w' : World} {rest : List (World × World)}
    (h : Performs between (least + 1) v (.wait wait) ((w, w') :: rest) o)
    (hx : Holding k i (P (.wait wait)) x v) :
    ∃ last u x' f u' later, Holding k i (P (.wait last)) x' u ∧ Onward k x v x' u ∧
      v.serial ≤ u.serial ∧ ((Sim.check last).run u).1 = .next f ∧
      Performs between least ((Sim.check last).run u).2 f
        ((((Sim.check last).run u).2, u') :: later) o ∧
      (u' :: later.map Prod.snd) <:+ w' :: rest.map Prod.snd := by
  generalize hf : Future.wait wait = f at h
  generalize hturns : (w, w') :: rest = turns at h
  induction h generalizing wait x w w' rest with
  | @last v f w₁ w₁' o n hsince hroom hturn =>
      subst hf
      cases hturns
      obtain ⟨n, rfl⟩ := Nat.exists_eq_add_of_le' (Nat.le_of_add_left_le hroom)
      obtain ⟨x', hx', honward, hserial⟩ := (hbetween _ _ _ hsince).arrives (hlocal _) hx
      rw [Sim.poll_wait] at hturn
      cases hchecked : (Sim.check wait).run w₁ with
      | mk p u =>
          rw [hchecked] at hturn
          cases p with
          | pending next => cases hturn
          | next f =>
              refine ⟨wait, w₁, x', f, w₁', [], hx', honward, hserial, ?_, ?_, List.suffix_rfl⟩
              · rw [hchecked]
              · rw [hchecked]
                exact .last n (hrefl _ _) (by omega) hturn
  | @turn v f f' w₁ w₁' turns o n hsince hroom hturn hgoes hrest ih =>
      subst hf
      cases hturns
      obtain ⟨n, rfl⟩ := Nat.exists_eq_add_of_le' (Nat.le_of_add_left_le hroom)
      obtain ⟨x', hx', honward, hserial⟩ := (hbetween _ _ _ hsince).arrives (hlocal _) hx
      obtain ⟨x'', hx'', honward', hserial'⟩ := (hcheck wait).arrives hx'
      rw [Sim.poll_wait] at hturn
      cases hchecked : (Sim.check wait).run w₁ with
      | mk p u =>
          rw [hchecked] at hturn hx'' honward' hserial'
          cases p with
          | pending next =>
              cases hturn
              obtain ⟨turn, more, rfl⟩ : ∃ turn more, turns = turn :: more := by
                cases hrest <;> exact ⟨_, _, rfl⟩
              obtain ⟨last, u', y, f, u'', later, hy, honward'', hserial'', hnext, hruns, hends⟩ :=
                ih hx'' rfl rfl
              exact ⟨last, u', y, f, u'', later, hy, (honward.trans honward').trans honward'',
                Nat.le_trans (Nat.le_trans hserial hserial') hserial'', hnext, hruns,
                hends.trans (List.suffix_cons w₁' _)⟩
          | next f =>
              refine ⟨wait, w₁, x', f, w₁', turns, hx', honward, hserial, ?_, ?_, List.suffix_rfl⟩
              · rw [hchecked]
              · rw [hchecked]
                exact .turn n (hrefl _ _) (by omega) hturn hgoes (hrest.mono (Nat.le_succ least))

end Performs

end EventHub.Simulation
