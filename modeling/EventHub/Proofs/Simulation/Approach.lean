import EventHub.Proofs.Panics.Runs
import EventHub.Proofs.Simulation.Step

/-!
How a computation comes to what it takes things for. Code that works on what is shared first
takes it, and lets others go on if it has to wait for that; until it is there it makes no
event and touches neither the stores nor what labels name.
-/

namespace EventHub.Simulation

open EventHub.Script

/-- The stores are the same, no event was made, and labels name what they did. -/
structure Quiet (w w' : World) : Prop where
  kept : Kept w w'
  nextSeq : w'.nextSeq = w.nextSeq
  revisions : w'.revisions = w.revisions
  viewLabels : w'.viewLabels = w.viewLabels

namespace Quiet

variable {w w' w'' : World}

theorem refl (w : World) : Quiet w w := ⟨.refl w, rfl, rfl, rfl⟩

theorem trans (h : Quiet w w') (h' : Quiet w' w'') : Quiet w w'' :=
  ⟨h.kept.trans h'.kept, h'.nextSeq.trans h.nextSeq, h'.revisions.trans h.revisions,
    h'.viewLabels.trans h.viewLabels⟩

end Quiet

/-- A computation that has come to its end, and only hands the result on. -/
inductive Over : {a : Shape} → Nat → Future a → Outcome a.Value → Prop
  | done {a : Shape} (o : Outcome a.Value) : Over 0 (.done o) o
  | bind {a b : Shape} {depth : Nat} {f : Future a} {v : Outcome a.Value} {frame : Frame a b}
      {o : Outcome b.Value} (h : Over depth f v)
      (hframe : ∀ w, (Sim.resume frame v).run w = (.done o, w)) :
      Over (depth + 1) (.bind f frame) o

section

variable {a : Shape} {depth : Nat} {f : Future a} {o : Outcome a.Value}

theorem Over.poll (h : Over depth f o) (n : Nat) (w : World) :
    (Sim.poll n f).run w = (if depth ≤ n then .done o else f, w) := by
  induction h generalizing n with
  | done o => rw [Sim.poll_done, if_pos (Nat.zero_le n)]
  | @bind a b depth f v frame o _ hframe ih =>
      cases n with
      | zero => rfl
      | succ n =>
          rw [Sim.poll_bind, ih]
          by_cases hdepth : depth ≤ n
          · simp only [if_pos hdepth, if_pos (Nat.succ_le_succ hdepth), hframe]
            rw [Sim.poll_done]
          · have hshort : ¬depth + 1 ≤ n + 1 := by omega
            rw [if_neg hdepth, if_neg hshort]
            cases ‹Over depth f v› with
            | done => exact absurd (Nat.zero_le n) hdepth
            | bind => rfl

theorem Over.runs (h : Over depth f o) {turns : List (World × World)} {o' : Outcome a.Value}
    (hruns : Runs f turns o') : o' = o ∧ ∀ turn ∈ turns, turn.2 = turn.1 := by
  induction hruns with
  | last n hturn =>
      rw [h.poll] at hturn
      split at hturn
      · cases hturn
        exact ⟨rfl, by simp⟩
      · obtain ⟨rfl, rfl⟩ := Prod.mk.inj hturn
        cases h
        exact ⟨rfl, by simp⟩
  | turn n hturn hgoes _ ih =>
      rw [h.poll] at hturn
      split at hturn
      · cases hturn
        exact absurd rfl (hgoes o)
      · obtain ⟨rfl, rfl⟩ := Prod.mk.inj hturn
        obtain ⟨ho, hturns⟩ := ih h
        exact ⟨ho, List.forall_mem_cons.mpr ⟨rfl, hturns⟩⟩

end

namespace Sim

variable {a : Shape}

theorem quiet_wakeTask (id : Nat) (w : World) : Quiet w ((wakeTask id).run w).2 := by
  rw [wakeTask, run_modify]
  split
  · exact .refl w
  · split
    · exact .refl w
    · exact ⟨⟨rfl, rfl⟩, rfl, rfl, rfl⟩
    · split
      · exact ⟨⟨rfl, rfl⟩, rfl, rfl, rfl⟩
      · split <;> exact ⟨⟨rfl, rfl⟩, rfl, rfl, rfl⟩

theorem quiet_defer (w : World) : Quiet w (defer.run w).2 := by
  simp only [defer, run_bind]
  split
  · exact quiet_wakeTask _ w
  · split <;> exact ⟨⟨rfl, rfl⟩, rfl, rfl, rfl⟩

/-- Taking things is quiet, and comes to an end if the task may still take as many. -/
theorem quiet_taking (n things : Nat) (t : Ticket) (w : World) :
    ∃ w', Quiet w w' ∧
      ((poll (n + 1) (.wait (.taking things t))).run w = (.value (), w') ∨
        w.allowance.getD things < things ∧ ∃ things', things' ≤ things ∧
          (poll (n + 1) (.wait (.taking things t))).run w = (.wait (.taking things' t), w')) := by
  have hspent : Quiet w ((spend things).run w).2 := ⟨spares_spend things w, rfl, rfl, rfl⟩
  rcases poll_taking_run n things t w with ⟨-, htaken⟩ | ⟨hless, hwaits⟩
  · exact ⟨_, hspent, Or.inl htaken⟩
  · exact ⟨_, hspent.trans (quiet_defer _), Or.inr ⟨hless, _, Nat.sub_le _ _, hwaits⟩⟩

/-- A computation that comes to what is next, at once or when it has taken one thing. -/
inductive Approaches (next : Begin a) : Future a → Prop where
  | opens (first : Begin a) (h : ∀ w, ∃ w', Quiet w w' ∧ w'.allowance = w.allowance ∧
      ((begin first).run w = (begin next).run w' ∨ ∃ things t, things ≤ 1 ∧
        (begin first).run w = (.bind (.wait (.taking things t)) (.andThen next), w'))) :
      Approaches next (.begin first)
  | taking (things : Nat) (t : Ticket) (hthings : things ≤ 1) :
      Approaches next (.bind (.wait (.taking things t)) (.andThen next))

namespace Approaches

variable {next : Begin a} {f : Future a}

/-- A turn either does not come to what is next, for want of time or because the task has taken
all that it may, or goes on with that. -/
theorem poll (h : Approaches next f) (n : Nat) (w : World) :
    (∃ f' w', (Sim.poll n f).run w = (f', w') ∧ Approaches next f' ∧ Quiet w w' ∧
      (n ≤ 2 ∨ w.allowance = some 0)) ∨
    ∃ n' w', n ≤ n' + 3 ∧ Quiet w w' ∧
      (Sim.poll n f).run w = (begin next >>= Sim.poll n').run w' := by
  have htaking (n things : Nat) (t : Ticket) (hthings : things ≤ 1) (w : World) :
      (∃ f' w', (Sim.poll n (.bind (.wait (.taking things t)) (.andThen next))).run w = (f', w') ∧
        Approaches next f' ∧ Quiet w w' ∧ (n ≤ 1 ∨ w.allowance = some 0)) ∨
      ∃ n' w', n ≤ n' + 2 ∧ Quiet w w' ∧
        (Sim.poll n (.bind (.wait (.taking things t)) (.andThen next))).run w =
          (begin next >>= Sim.poll n').run w' := by
    match n with
    | 0 => exact Or.inl ⟨_, w, rfl, .taking things t hthings, .refl w, Or.inl (by omega)⟩
    | 1 => exact Or.inl ⟨_, w, rfl, .taking things t hthings, .refl w, Or.inl (by omega)⟩
    | n + 2 =>
        rw [poll_bind]
        obtain ⟨w', hquiet, htaken | ⟨hless, things', hle, hwaits⟩⟩ := quiet_taking n things t w
        · refine Or.inr ⟨n, w', Nat.le_refl _, hquiet, ?_⟩
          simp only [htaken, Future.value]
          rw [resume_andThen, poll_begin]
          rfl
        · have hspent : w.allowance = some 0 := by
            cases hallowance : w.allowance with
            | none => simp [hallowance] at hless
            | some left =>
                rw [hallowance] at hless
                have hleft : left < things := hless
                exact congrArg some (by omega)
          rw [hwaits]
          exact Or.inl ⟨_, w', rfl, .taking things' t (Nat.le_trans hle hthings), hquiet, Or.inr hspent⟩
  cases h with
  | taking things t hthings =>
      rcases htaking n things t hthings w with ⟨f', w', hturn, happroaches, hquiet, hshort⟩ |
        ⟨n', w', hn, hquiet, hturn⟩
      · exact Or.inl ⟨f', w', hturn, happroaches, hquiet, hshort.imp_left (by omega)⟩
      · exact Or.inr ⟨n', w', by omega, hquiet, hturn⟩
  | opens first h =>
      cases n with
      | zero => exact Or.inl ⟨_, w, rfl, .opens first h, .refl w, Or.inl (by omega)⟩
      | succ n =>
          obtain ⟨v, hopened, hallowance, hnext | ⟨things, t, hthings, hfirst⟩⟩ := h w
          · refine Or.inr ⟨n, v, by omega, hopened, ?_⟩
            rw [poll_begin, hnext]
            rfl
          · rw [poll_begin, hfirst]
            rcases htaking n things t hthings v with ⟨f', w', hturn, happroaches, hquiet, hshort⟩ |
              ⟨n', w', hn, hquiet, hturn⟩
            · refine Or.inl ⟨f', w', hturn, happroaches, hopened.trans hquiet, ?_⟩
              rw [hallowance] at hshort
              exact hshort.imp_left (by omega)
            · exact Or.inr ⟨n', w', by omega, hopened.trans hquiet, hturn⟩

end Approaches

end Sim

/-- Code that is over with this result as soon as it is begun in such a world, after it did
this to it. Such a world stays one while nothing happens. -/
structure AtOnce {a : Shape} (next : Begin a) (there : World → Prop) (depth : Nat)
    (o : Outcome a.Value) (did : World → World → Prop) : Prop where
  stays : ∀ w w', Quiet w w' → there w → there w'
  isOver : ∀ w, there w → ∃ d, d ≤ depth ∧ Over d ((Sim.begin next).run w).1 o
  did : ∀ w, there w → did w ((Sim.begin next).run w).2

namespace AtOnce

variable {a : Shape} {next : Begin a} {there : World → Prop} {depth : Nat} {o : Outcome a.Value}
  {did : World → World → Prop} {f : Future a}

/-- In the turn that comes to the code, it does all that it does. -/
theorem comes (h : AtOnce next there depth o did) {w v w' : World} {n n' : Nat} {g : Future a}
    (hw : there w) (hquiet : Quiet w v) (hturn : (Sim.poll n f).run w = (g, w'))
    (hcomes : (Sim.poll n f).run w = (Sim.begin next >>= Sim.poll n').run v) :
    there v ∧ did v w' ∧ ∃ d, Over d g o := by
  have hv := h.stays w v hquiet hw
  obtain ⟨d, -, hover⟩ := h.isOver v hv
  rw [hcomes, Sim.run_bind, hover.poll] at hturn
  obtain ⟨rfl, rfl⟩ := Prod.mk.inj hturn
  refine ⟨hv, h.did v hv, ?_⟩
  split
  · exact ⟨0, .done o⟩
  · exact ⟨d, hover⟩

/-- Of the turns of a computation that comes to such code, one does what the code does. The
others are quiet. -/
theorem runs (h : AtOnce next there depth o did) (hf : Sim.Approaches next f)
    {turns : List (World × World)} {o' : Outcome a.Value} (hruns : Runs f turns o')
    (hthere : ∀ turn ∈ turns, there turn.1) :
    o' = o ∧ ∃ before w v w' after, turns = before ++ (w, w') :: after ∧ Quiet w v ∧ there v ∧
      did v w' ∧ ∀ turn ∈ before ++ after, Quiet turn.1 turn.2 := by
  induction hruns with
  | @last f w w' o' n hturn =>
      have hw : there w := hthere (w, w') (by simp)
      rcases hf.poll n w with ⟨f', w₁, hearly, happroaches, -, -⟩ | ⟨n', v, -, hquiet, hcomes⟩
      · cases hturn.symm.trans hearly
        cases happroaches
      · obtain ⟨hv, hdid, d, hover⟩ := h.comes hw hquiet hturn hcomes
        cases hover
        exact ⟨rfl, [], w, v, w', [], rfl, hquiet, hv, hdid, by simp⟩
  | @turn f f' w w' turns o' n hturn hgoes hrest ih =>
      obtain ⟨hw, hlater⟩ := List.forall_mem_cons.mp hthere
      rcases hf.poll n w with ⟨g, w₁, hearly, happroaches, hquiet, -⟩ | ⟨n', v, -, hquiet, hcomes⟩
      · cases hturn.symm.trans hearly
        obtain ⟨ho, before, w₂, v, w₂', after, rfl, hopen, hv, hdid, hothers⟩ :=
          ih happroaches hlater
        exact ⟨ho, (w, w') :: before, w₂, v, w₂', after, rfl, hopen, hv, hdid,
          List.forall_mem_cons.mpr ⟨hquiet, hothers⟩⟩
      · obtain ⟨hv, hdid, d, hover⟩ := h.comes hw hquiet hturn hcomes
        obtain ⟨ho, hsame⟩ := hover.runs hrest
        refine ⟨ho, [], w, v, w', turns, rfl, hquiet, hv, hdid, ?_⟩
        intro turn hmem
        rw [hsame turn hmem]
        exact .refl turn.1

/-- If the task may still take something, one turn that is long enough does it all. -/
theorem ends (h : AtOnce next there depth o did) (hf : Sim.Approaches next f) {n : Nat}
    {w : World} (hn : depth + 3 ≤ n) (hfree : w.allowance ≠ some 0) (hw : there w) :
    ((Sim.poll n f).run w).1 = .done o := by
  rcases hf.poll n w with ⟨_, _, -, -, -, hshort | hspent⟩ | ⟨n', v, hn', hquiet, hcomes⟩
  · omega
  · exact absurd hspent hfree
  · have hv := h.stays w v hquiet hw
    obtain ⟨d, hd, hover⟩ := h.isOver v hv
    have henough : d ≤ n' := by omega
    rw [hcomes, Sim.run_bind, hover.poll, if_pos henough]

end AtOnce

end EventHub.Simulation
