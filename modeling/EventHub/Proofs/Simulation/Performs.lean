import EventHub.Proofs.Panics.Runs

/-!
Calls among the others. A call has turns of its own, and between two of them the world goes on
as the others may let it go. What a part of the call does is such a performance as well, and
the others do to the part what they do to the call.
-/

namespace EventHub.Simulation

variable {a b : Shape} {between between' : Future a → World → World → Prop} {least more : Nat}
  {v : World} {f : Future a} {turns : List (World × World)} {o : Outcome a.Value}

/-- A computation comes to its outcome in turns of its own, each with the world before and
after it and with room for so many steps at least. Before each of them the world has gone on,
with the computation as it was left. -/
inductive Performs {a : Shape} (between : Future a → World → World → Prop) (least : Nat) :
    World → Future a → List (World × World) → Outcome a.Value → Prop
  | last {v : World} {f : Future a} {w w' : World} {o : Outcome a.Value} (n : Nat)
      (hsince : between f v w) (hroom : least ≤ n)
      (hturn : (Sim.poll n f).run w = (.done o, w')) : Performs between least v f [(w, w')] o
  | turn {v : World} {f f' : Future a} {w w' : World} {turns : List (World × World)}
      {o : Outcome a.Value} (n : Nat) (hsince : between f v w) (hroom : least ≤ n)
      (hturn : (Sim.poll n f).run w = (f', w')) (hgoes : ∀ o, f' ≠ .done o)
      (hrest : Performs between least w' f' turns o) :
      Performs between least v f ((w, w') :: turns) o

/-- The first turn begins in this world, and the last one ends in that. -/
structure Spans (turns : List (World × World)) (first last : World) : Prop where
  first : turns.head?.map Prod.fst = some first
  last : turns.getLast?.map Prod.snd = some last

theorem spans_single (w w' : World) : Spans [(w, w')] w w' := ⟨rfl, rfl⟩

theorem Spans.cons {first last : World} (h : Spans turns first last) (w w' : World) :
    Spans ((w, w') :: turns) w last := by
  refine ⟨rfl, ?_⟩
  cases turns with
  | nil => cases h.last
  | cons turn rest => exact h.last

theorem last_of_part {part : List (World × World)} {last : World}
    (h : part.map Prod.snd <:+ turns.map Prod.snd)
    (hlast : part.getLast?.map Prod.snd = some last) :
    turns.getLast?.map Prod.snd = some last := by
  obtain ⟨before, hbefore⟩ := h
  rw [← List.getLast?_map] at hlast ⊢
  rw [← hbefore, List.getLast?_append, hlast]
  rfl

/-- What ends with the last turns ends where they end. -/
theorem last_of_suffix {w z v u : World} {later : List (World × World)}
    (h : (z :: later.map Prod.snd) <:+ w :: turns.map Prod.snd) :
    ((u, z) :: later).getLast?.map Prod.snd = ((v, w) :: turns).getLast?.map Prod.snd := by
  obtain ⟨before, hbefore⟩ := h
  rw [← List.getLast?_map, ← List.getLast?_map, List.map_cons, List.map_cons, ← hbefore]
  simp [List.getLast?_append, List.getLast?_cons]

namespace Performs

theorem runs (h : Performs between least v f turns o) : Runs f turns o := by
  induction h with
  | last n _ _ hturn => exact .last n hturn
  | turn n _ _ hturn hgoes _ ih => exact .turn n hturn hgoes ih

theorem mono (h : Performs between more v f turns o) (hless : least ≤ more) :
    Performs between least v f turns o := by
  induction h with
  | last n hsince hroom hturn => exact .last n hsince (Nat.le_trans hless hroom) hturn
  | turn n hsince hroom hturn hgoes _ ih =>
      exact .turn n hsince (Nat.le_trans hless hroom) hturn hgoes ih

/-- There is a first turn, which begins when the others have done something. -/
theorem first_turn (h : Performs between least v f turns o) :
    ∃ w w' rest, turns = (w, w') :: rest ∧ between f v w := by
  cases h with
  | last n hsince => exact ⟨_, _, _, rfl, hsince⟩
  | turn n hsince => exact ⟨_, _, _, rfl, hsince⟩

/-- The others may do more than they do. -/
theorem imp (h : Performs between least v f turns o)
    (hless : ∀ f v w, between f v w → between' f v w) : Performs between' least v f turns o := by
  induction h with
  | last n hsince hroom hturn => exact .last n (hless _ _ _ hsince) hroom hturn
  | turn n hsince hroom hturn hgoes _ ih =>
      exact .turn n (hless _ _ _ hsince) hroom hturn hgoes ih

/-- What has ended is looked at once more. -/
theorem of_done {own : Outcome a.Value} (h : Performs between least v (.done own) turns o) :
    o = own ∧ ∃ w, between (.done own) v w ∧ turns = [(w, w)] := by
  obtain ⟨rfl, w, rfl⟩ := h.runs.of_done
  cases h with
  | last n hsince => exact ⟨rfl, w, hsince, rfl⟩
  | turn _ _ _ _ _ hrest => cases hrest

/-- What has ended in the midst of a turn ends there. -/
theorem of_ended {w' : World} {rest : List (World × World)} {own : Outcome a.Value}
    (h : Performs between least v (.done own) ((v, w') :: rest) o) :
    o = own ∧ w' = v ∧ rest = [] := by
  obtain ⟨rfl, w, -, hturns⟩ := h.of_done
  cases hturns
  exact ⟨rfl, rfl, rfl⟩

/-- The call starts in its first turn. -/
theorem of_begin (hrefl : ∀ f w, between f w w) {start : Begin a}
    (h : Performs between (least + 1) v (.begin start) turns o) :
    ∃ w w' rest, turns = (w, w') :: rest ∧ between (.begin start) v w ∧
      Performs between least ((Sim.begin start).run w).2 ((Sim.begin start).run w).1
        ((((Sim.begin start).run w).2, w') :: rest) o := by
  cases h with
  | @last _ _ w w' _ n hsince hroom hturn =>
      obtain ⟨n, rfl⟩ := Nat.exists_eq_add_of_le' (Nat.le_of_add_left_le hroom)
      rw [Sim.poll_begin] at hturn
      exact ⟨w, w', [], rfl, hsince, .last n (hrefl _ _) (by omega) hturn⟩
  | @turn _ _ f' w w' rest _ n hsince hroom hturn hgoes hrest =>
      obtain ⟨n, rfl⟩ := Nat.exists_eq_add_of_le' (Nat.le_of_add_left_le hroom)
      rw [Sim.poll_begin] at hturn
      exact ⟨w, w', rest, rfl, hsince,
        .turn n (hrefl _ _) (by omega) hturn hgoes (hrest.mono (Nat.le_succ least))⟩

/-- The inner part is performed from the first turn on, and where it ends its frame goes on with
the result. -/
theorem of_bind {between : Future b → World → World → Prop} (hrefl : ∀ f w, between f w w)
    {inner : Future a} {frame : Frame a b} {o : Outcome b.Value} {w w' : World}
    {rest : List (World × World)}
    (h : Performs between (least + 1) v (.bind inner frame) ((w, w') :: rest) o) :
    ∃ own ended u u' later,
      Performs (fun f => between (.bind f frame)) least v inner own ended ∧ Spans own w u ∧
      Opens own ((w, w') :: rest) ∧
      Performs between least ((Sim.resume frame ended).run u).2
        ((Sim.resume frame ended).run u).1
        ((((Sim.resume frame ended).run u).2, u') :: later) o ∧
      (u' :: later.map Prod.snd) <:+ w' :: rest.map Prod.snd := by
  generalize hf : Future.bind inner frame = f at h
  generalize hturns : (w, w') :: rest = turns at h
  induction h generalizing inner w w' rest with
  | @last v f x x' o n hsince hroom hturn =>
      subst hf
      cases hturns
      obtain ⟨n, rfl⟩ := Nat.exists_eq_add_of_le' (Nat.le_of_add_left_le hroom)
      rw [Sim.poll_bind] at hturn
      cases hinner : (Sim.poll n inner).run x with
      | mk g u =>
          rw [hinner] at hturn
          cases g with
          | done ended =>
              exact ⟨[(x, u)], ended, u, x', [], .last n hsince (by omega) hinner,
                spans_single x u, opens_head x u x' [], .last n (hrefl _ _) (by omega) hturn,
                List.suffix_rfl⟩
          | _ => cases hturn
  | @turn v f f' x x' rest o n hsince hroom hturn hgoes hrest ih =>
      subst hf
      cases hturns
      obtain ⟨n, rfl⟩ := Nat.exists_eq_add_of_le' (Nat.le_of_add_left_le hroom)
      rw [Sim.poll_bind] at hturn
      cases hinner : (Sim.poll n inner).run x with
      | mk g u =>
          rw [hinner] at hturn
          -- The inner part goes on, unless it ends in this turn.
          have hlater (hgoes' : ∀ o, g ≠ .done o) (hf' : f' = .bind g frame) (hx : x' = u) :
              ∃ own ended u u' later,
                Performs (fun f => between (.bind f frame)) least v inner own ended ∧
                Spans own x u ∧ Opens own ((x, x') :: rest) ∧
                Performs between least ((Sim.resume frame ended).run u).2
                  ((Sim.resume frame ended).run u).1
                  ((((Sim.resume frame ended).run u).2, u') :: later) o ∧
                (u' :: later.map Prod.snd) <:+ x' :: rest.map Prod.snd := by
            subst hx
            obtain ⟨turn, more, rfl⟩ : ∃ turn more, rest = turn :: more := by
              cases hrest <;> exact ⟨_, _, rfl⟩
            obtain ⟨own, ended, u, u', later, hown, hspans, hopens, hruns, hends⟩ :=
              ih hf'.symm rfl
            exact ⟨(x, x') :: own, ended, u, u', later,
              .turn n hsince (by omega) hinner hgoes' hown, hspans.cons x x',
              (List.prefix_cons_inj x).mpr hopens, hruns, hends.trans (List.suffix_cons x' _)⟩
          cases g with
          | done ended =>
              exact ⟨[(x, u)], ended, u, x', rest, .last n hsince (by omega) hinner,
                spans_single x u, opens_head x u x' rest,
                .turn n (hrefl _ _) (by omega) hturn hgoes (hrest.mono (Nat.le_succ least)),
                List.suffix_rfl⟩
          | _ =>
              cases hturn
              exact hlater (fun _ h => by cases h) rfl rfl

/-- A part that ends at once, and what goes on with its value in the same turn. -/
theorem of_value {between : Future b → World → World → Prop}
    (hrefl : ∀ f w, between f w w) {start : Begin a} {frame : Frame a b} {value : a.Value}
    {w w' y : World} {rest : List (World × World)} {o : Outcome b.Value}
    (h : Performs between (least + 2) v (.bind (.begin start) frame) ((w, w') :: rest) o)
    (hvalue : (Sim.begin start).run w = (.value value, y)) :
    ∃ u' later,
      Performs between least ((Sim.resume frame (.returned value)).run y).2
        ((Sim.resume frame (.returned value)).run y).1
        ((((Sim.resume frame (.returned value)).run y).2, u') :: later) o ∧
      (u' :: later.map Prod.snd) <:+ w' :: rest.map Prod.snd := by
  obtain ⟨own, ended, u, u', later, hown, hspans, -, hgoes, hends⟩ := h.of_bind hrefl
  obtain ⟨x, x', more, rfl, -, hbegun⟩ := hown.of_begin fun f w => hrefl _ w
  obtain rfl : x = w := Option.some.inj hspans.first
  rw [hvalue] at hbegun
  obtain ⟨rfl, rfl, rfl⟩ := hbegun.of_ended
  obtain rfl : x' = u := Option.some.inj hspans.last
  exact ⟨u', later, hgoes.mono (Nat.le_succ least), hends⟩

/-- What goes on in the midst of a turn as a call does that begins there is this call. -/
theorem begun {start : Begin a} {w' : World} {rest : List (World × World)}
    (hsince : between (.begin start) v v)
    (h : Performs between least ((Sim.begin start).run v).2 ((Sim.begin start).run v).1
      ((((Sim.begin start).run v).2, w') :: rest) o) :
    Performs between least v (.begin start) ((v, w') :: rest) o := by
  cases h with
  | last n _ hroom hturn =>
      refine .last (n + 1) hsince (Nat.le_succ_of_le hroom) ?_
      rw [Sim.poll_begin]
      exact hturn
  | turn n _ hroom hturn hgoes hrest =>
      refine .turn (n + 1) hsince (Nat.le_succ_of_le hroom) ?_ hgoes hrest
      rw [Sim.poll_begin]
      exact hturn

end Performs

end EventHub.Simulation
