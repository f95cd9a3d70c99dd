import EventHub.Proofs.Replay.Tame

/-!
What one task does, step by step. An action plays its part if, begun with the tickets
that the computation holds before, it lands with those that it holds afterwards. The
rules are those of a logic of actions; what the computation holds besides is framed.
-/

namespace EventHub.Simulation

/-- A statement about the traffic and the tickets that are held in it. -/
abbrev Held := Traffic Action → List Ticket → Prop

namespace Held

/-- No ticket is held. -/
def none : Held := fun _ ts => ts = []

/-- Some tickets are held for the one, the others for the other. -/
def sep (P Q : Held) : Held := fun x ts => ∃ ti tf, ts = ti ++ tf ∧ P x ti ∧ Q x tf

/-- The statement is about the tickets that are held and nothing else. -/
def Local (P : Held) : Prop :=
  ∀ ⦃x x' ts⦄, P x ts → (∀ t ∈ ts, x'.tasks t = x.tasks t) → P x' ts

theorem local_none : none.Local := fun _ _ _ h _ => h

theorem local_future (k : Nat) {a : Shape} (f : Future a) : Local fun x => f.Holds k x :=
  fun _ _ _ h htasks => h.congr htasks

theorem local_frame (k : Nat) {a b : Shape} (frame : Frame a b) :
    Local fun x => frame.Holds k x := fun _ _ _ h htasks => h.congr htasks

theorem local_wait (k : Nat) {a : Shape} (w : Wait a) : Local fun x => w.Holds k x :=
  fun _ _ _ h htasks => h.congr htasks

theorem Local.sep {P Q : Held} (hP : P.Local) (hQ : Q.Local) : (P.sep Q).Local := by
  rintro x x' _ ⟨ti, tf, rfl, hti, htf⟩ htasks
  refine ⟨ti, tf, rfl, ?_, ?_⟩
  · exact hP hti fun t ht => htasks t (List.mem_append_left _ ht)
  · exact hQ htf fun t ht => htasks t (List.mem_append_right _ ht)

theorem none_sep {P : Held} {x : Traffic Action} {ts : List Ticket} (h : none.sep P x ts) :
    P x ts := by
  obtain ⟨_, tf, rfl, rfl, htf⟩ := h
  exact htf

theorem sep_comm {P Q : Held} {x : Traffic Action} {ts : List Ticket} (h : P.sep Q x ts) :
    ∃ ts', ts'.Subperm ts ∧ Q.sep P x ts' := by
  obtain ⟨ti, tf, rfl, hti, htf⟩ := h
  exact ⟨tf ++ ti, List.perm_append_comm.subperm, tf, ti, rfl, htf, hti⟩

theorem sep_none {P : Held} {x : Traffic Action} {ts : List Ticket} (h : P x ts) :
    P.sep none x ts := ⟨ts, [], by simp, h, rfl⟩

end Held

/-- One ticket is held, and this is what its task does. -/
def Does (t : Ticket) (activity : Activity Action) : Held := fun x ts =>
  ts = [t] ∧ x.tasks t = some ⟨activity, false⟩

theorem local_does (t : Ticket) (activity : Activity Action) : (Does t activity).Local := by
  rintro x x' _ ⟨rfl, htask⟩ htasks
  exact ⟨rfl, (htasks t (List.mem_singleton_self t)).trans htask⟩

namespace Sim

variable {α β : Type} {a : Shape} {k i : Nat}

/-- Done by task `i`, the action leads from what is held before to what is held after. -/
def Plays (k i : Nat) (P : Held) (m : Sim α) (Q : α → Held) : Prop :=
  ∀ x ts w, Replays k (some i) x w → P x ts → Owns i w ts →
    Lands k i ts x w (m.run w).2 (Q (m.run w).1)

namespace Plays

variable {P : Held} {m : Sim α} {Q : α → Held}

theorem bind {f : α → Sim β} {Q' : β → Held} (hm : Plays k i P m Q)
    (hf : ∀ v, Plays k i (Q v) (f v) Q') : Plays k i P (m >>= f) Q' := by
  intro x ts w h hP hown
  rw [run_bind]
  refine (hm x ts w h hP hown).bind ?_
  intro x' ts' h' hQ hown'
  exact hf _ x' ts' _ h' hQ hown'

theorem pure {v : α} (hv : ∀ x ts, P x ts → Q v x ts) :
    Plays k i P (Pure.pure v) Q := fun x ts _ h hP hown => h.lands (hv x ts hP) hown

theorem weaken {R : Held} (hm : Plays k i P m Q) (hR : ∀ x ts, R x ts → P x ts) :
    Plays k i R m Q := fun x ts w h hts hown => hm x ts w h (hR x ts hts) hown

/-- What is held may be held in another order, or no longer. -/
theorem settle {R : α → Held} (hm : Plays k i P m Q)
    (hQ : ∀ v x ts, Q v x ts → ∃ ts', ts'.Subperm ts ∧ R v x ts') :
    Plays k i P m R := fun x ts w h hP hown => (hm x ts w h hP hown).mono (hQ _)

theorem map {f : α → β} {Q' : β → Held} (hm : Plays k i P m Q)
    (hf : ∀ v x ts, Q v x ts → Q' (f v) x ts) : Plays k i P (f <$> m) Q' :=
  fun x ts w h hP hown =>
    (hm x ts w h hP hown).mono fun x' ts' hQ => ⟨ts', .refl _, hf _ x' ts' hQ⟩

theorem drop (hm : Plays k i P m Q) : Plays k i P m fun _ => .none :=
  hm.settle fun _ _ _ _ => ⟨[], List.nil_subperm, rfl⟩

/-- What is calm changes nothing about what is held. -/
theorem calm (hm : Calms k m) (hP : P.Local) : Plays k i P m fun _ => P :=
  fun _ _ w h hts hown => h.calm_lands (hm w) (fun _ htasks _ => hP hts fun t _ =>
    congrFun htasks t) hown

/-- A computation that holds nothing; what was held is held no longer. -/
theorem tame {m : Sim (Future a)} (hm : Tame k m) : Plays k i P m fun f x => f.Holds k x := by
  intro x _ w h _ _
  obtain ⟨x', hreplays, honward, htasks, -⟩ := h.calm (hm w).1
  exact ⟨x', [], ⟨hreplays, honward, (hm w).1.serial, fun t _ _ => congrFun htasks t⟩, (hm w).2 x',
    .nil i _, by simp⟩

theorem quit {f : Future a} (hplain : f.Plain k) :
    Plays k i P (Pure.pure f) fun f x => f.Holds k x := .tame (.pure hplain)

/-- What is held besides stays as it is. -/
theorem frame {R : Held} (hm : Plays k i P m Q) (hR : R.Local) :
    Plays k i (P.sep R) m fun v => (Q v).sep R := by
  rintro x _ w h ⟨ti, tf, rfl, hti, htf⟩ hown
  have hown' : Owns i w ti :=
    ⟨(List.nodup_append.mp hown.nodup).1, fun t ht => hown.own t (List.mem_append_left _ ht)⟩
  refine ((hm x ti w h hti hown').beside hown).mono ?_
  rintro x' _ ⟨ti', rfl, hQ, htasks⟩
  exact ⟨_, .refl _, ti', tf, rfl, hQ, hR htf htasks⟩

end Plays

/-- A ticket that the traffic does not know yet. -/
def Fresh (t : Ticket) : Held := fun x ts => ts = [t] ∧ x.tasks t = none

/-- A new ticket is nobody's, and slots that nobody decides stay what they are. -/
theorem plays_ticket_orphans (R : List ServiceId → Prop) :
    Plays k i (fun x ts => ts = [] ∧ R x.orphans) ticket
      fun t x ts => Fresh t x ts ∧ R x.orphans := by
  rintro x _ w h ⟨rfl, horphans⟩ hown
  have hcurrent : w.current = i := h.current i rfl
  obtain ⟨x', hreplays, honward, htasks, horphans'⟩ := h.calm (calms_ticket w)
  have hnone : x.tasks ⟨w.current, w.serial⟩ = none := h.new (Nat.le_refl _)
  refine ⟨x', [⟨w.current, w.serial⟩],
    ⟨hreplays, honward, Nat.le_succ _, fun t _ _ => congrFun htasks t⟩,
    ⟨⟨rfl, (congrFun htasks _).trans hnone⟩, horphans' ▸ horphans⟩,
    ⟨List.nodup_singleton _, ?_⟩, ?_⟩
  · rintro t ht
    obtain rfl := List.mem_singleton.mp ht
    exact ⟨hcurrent, Nat.lt_succ_self _⟩
  · rintro t ht
    obtain rfl := List.mem_singleton.mp ht
    exact Or.inr (Nat.le_refl _)

theorem plays_ticket : Plays k i .none ticket fun t => Fresh t :=
  ((plays_ticket_orphans fun _ => True).weaken fun _ _ h => ⟨h, trivial⟩).settle
    fun _ _ ts h => ⟨ts, .refl _, h.1⟩

end Sim

end EventHub.Simulation
