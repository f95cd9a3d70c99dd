import EventHub.Proofs.Replay.Holds
import Mathlib.Data.List.Perm.Subperm

/-!
A world replays the traffic at one broker: the broker is in the state that the
traffic has left it in, and every task holds tickets of its own. While a task runs,
what it does at the broker are turns of the tickets that it holds or of new ones, and
nothing that it does elsewhere is of any consequence here.
-/

namespace EventHub.Simulation

/-- The tickets belong to one task, each to one call. -/
structure Owns (i : Nat) (w : World) (ts : List Ticket) : Prop where
  nodup : ts.Nodup
  own : ∀ t ∈ ts, t.task = i ∧ t.serial < w.serial

theorem Owns.mono {i : Nat} {w w' : World} {ts : List Ticket} (h : Owns i w ts)
    (hserial : w.serial ≤ w'.serial) : Owns i w' ts :=
  ⟨h.nodup, fun t ht => ⟨(h.own t ht).1, Nat.lt_of_lt_of_le (h.own t ht).2 hserial⟩⟩

theorem Owns.sublist {i : Nat} {w : World} {ts us : List Ticket} (h : Owns i w ts)
    (hus : us.Sublist ts) : Owns i w us :=
  ⟨h.nodup.sublist hus, fun t ht => h.own t (hus.subset ht)⟩

theorem Owns.nil (i : Nat) (w : World) : Owns i w [] := ⟨List.nodup_nil, by simp⟩

/-- The world replays the traffic at broker `k`. The running task holds what it holds
on its own account. -/
structure Replays (k : Nat) (running : Option Nat) (x : Traffic Action) (w : World) : Prop where
  current : ∀ i, running = some i → w.current = i
  found : ∀ b, w.brokers[k]? = some b → x.broker = b ∧ b.outbox = {} ∧
    ∃ config worker moves, x = Traffic.run config worker moves
  absent : w.brokers[k]? = none → (∀ t, x.tasks t = none) ∧ x.orphans = []
  fresh : ∀ t task, x.tasks t = some task → t.serial < w.serial
  others : ∀ (j : Nat) (task : Task), running ≠ some j → w.tasks[j]? = some task →
    ∃ ts, task.running.Holds k x ts ∧ Owns j w ts

/-- Nothing has happened that concerns a broker, but that one may have been made. -/
structure Calm (k : Nat) (w w' : World) : Prop where
  current : w'.current = w.current
  serial : w.serial ≤ w'.serial
  brokers : w'.brokers[k]? = w.brokers[k]? ∨
    (w.brokers[k]? = none ∧ ∃ config worker, w'.brokers[k]? = some (Broker.new config worker))
  size : w.tasks.size ≤ w'.tasks.size
  tasks : ∀ (j : Nat) (task' : Task), w'.tasks[j]? = some task' →
    (∃ task : Task, w.tasks[j]? = some task ∧ task'.running = task.running) ∨
      (w.tasks[j]? = none ∧ task'.running.Plain k)

namespace Calm

variable {k : Nat} {w w' w'' : World}

/-- What changes neither brokers nor tasks. -/
theorem of_eq (hcurrent : w'.current = w.current) (hserial : w.serial ≤ w'.serial)
    (hbrokers : w'.brokers = w.brokers) (htasks : w'.tasks = w.tasks) : Calm k w w' where
  current := hcurrent
  serial := hserial
  brokers := Or.inl (by rw [hbrokers])
  size := Nat.le_of_eq (by rw [htasks])
  tasks := by
    intro j task' htask
    rw [htasks] at htask
    exact Or.inl ⟨task', htask, rfl⟩

theorem refl (w : World) : Calm k w w := of_eq rfl (Nat.le_refl _) rfl rfl

theorem trans (h : Calm k w w') (h' : Calm k w' w'') : Calm k w w'' where
  current := h'.current.trans h.current
  serial := Nat.le_trans h.serial h'.serial
  brokers := by
    rcases h'.brokers with heq' | ⟨hnone', hnew⟩
    · rw [heq']
      exact h.brokers
    · rcases h.brokers with heq | ⟨-, config, worker, hsome⟩
      · exact Or.inr ⟨heq.symm.trans hnone', hnew⟩
      · cases hnone'.symm.trans hsome
  size := Nat.le_trans h.size h'.size
  tasks := by
    intro j task'' htask''
    rcases h'.tasks j task'' htask'' with ⟨task', htask', hrunning'⟩ | ⟨hnone', hplain⟩
    · rcases h.tasks j task' htask' with ⟨task, htask, hrunning⟩ | ⟨hnone, hplain⟩
      · exact Or.inl ⟨task, htask, hrunning'.trans hrunning⟩
      · exact Or.inr ⟨hnone, by rwa [hrunning']⟩
    · refine Or.inr ⟨?_, hplain⟩
      have hle := h.size
      have hle' := Array.getElem?_eq_none_iff.mp hnone'
      exact Array.getElem?_eq_none_iff.mpr (Nat.le_trans hle hle')

end Calm

/-- The broker is still there, and its traffic has gone on from where it was. -/
def Onward (k : Nat) (x : Traffic Action) (w : World) (x' : Traffic Action) (w' : World) : Prop :=
  ∀ b, w.brokers[k]? = some b →
    (∃ b', w'.brokers[k]? = some b') ∧
      ∃ moves : List (Move Action), x' = moves.foldl Traffic.step x

namespace Onward

variable {k : Nat} {x x' x'' : Traffic Action} {w w' w'' : World}

theorem of_eq (hbrokers : w'.brokers[k]? = w.brokers[k]?) : Onward k x w x w' :=
  fun b hb => ⟨⟨b, hbrokers.trans hb⟩, [], rfl⟩

theorem refl (x : Traffic Action) (w : World) : Onward k x w x w := of_eq rfl

theorem trans (h : Onward k x w x' w') (h' : Onward k x' w' x'' w'') : Onward k x w x'' w'' := by
  intro b hb
  obtain ⟨⟨b', hb'⟩, moves, rfl⟩ := h b hb
  obtain ⟨hfound, moves', rfl⟩ := h' b' hb'
  exact ⟨hfound, moves ++ moves', List.foldl_append.symm⟩

end Onward

namespace Replays

variable {k : Nat} {running : Option Nat} {x : Traffic Action} {w w' : World}

/-- A calm stretch is replayed by nothing, or by the beginning of the traffic. -/
theorem calm (h : Replays k running x w) (hcalm : Calm k w w') :
    ∃ x', Replays k running x' w' ∧ Onward k x w x' w' ∧ x'.tasks = x.tasks ∧
      x'.orphans = x.orphans := by
  have hothers (x' : Traffic Action) (htasks : x'.tasks = x.tasks)
      (horphans : x'.orphans = x.orphans) : ∀ (j : Nat) (task : Task), running ≠ some j →
      w'.tasks[j]? = some task → ∃ ts, task.running.Holds k x' ts ∧ Owns j w' ts := by
    intro j task hj htask
    rcases hcalm.tasks j task htask with ⟨task₀, htask₀, hrunning⟩ | ⟨-, hplain⟩
    · obtain ⟨ts, hholds, hown⟩ := h.others j task₀ hj htask₀
      rw [hrunning]
      refine ⟨ts, hholds.congr ?_ ?_, hown.mono hcalm.serial⟩
      · intro t _
        rw [htasks]
      · rw [horphans]
        exact List.Subset.refl _
    · exact ⟨[], hplain x', .nil j w'⟩
  rcases hcalm.brokers with heq | ⟨hnone, config, worker, hnew⟩
  · refine ⟨x, ?_, .of_eq heq, rfl, rfl⟩
    constructor
    case current => exact fun i hi => hcalm.current.trans (h.current i hi)
    case found => exact fun b hb => h.found b (heq ▸ hb)
    case absent => exact fun hnone => h.absent (heq ▸ hnone)
    case fresh => exact fun t task ht => Nat.lt_of_lt_of_le (h.fresh t task ht) hcalm.serial
    case others => exact hothers x rfl rfl
  · obtain ⟨htasks, horphans⟩ := h.absent hnone
    refine ⟨Traffic.run config worker [], ?_, ?_, funext fun t => (htasks t).symm, horphans.symm⟩
    swap
    · exact fun b hb => absurd (hnone.symm.trans hb) (by simp)
    constructor
    case current => exact fun i hi => hcalm.current.trans (h.current i hi)
    case found =>
      intro b hb
      cases hnew.symm.trans hb
      exact ⟨rfl, rfl, config, worker, [], rfl⟩
    case absent => exact fun hnone' => absurd (hnone'.symm.trans hnew) (by simp)
    case fresh =>
      intro t task ht
      cases ht
    case others => exact hothers _ (funext fun t => (htasks t).symm) horphans.symm

theorem new (h : Replays k running x w) {u : Ticket} (hu : w.serial ≤ u.serial) :
    x.tasks u = none := by
  by_contra hsome
  obtain ⟨task, htask⟩ := Option.ne_none_iff_exists'.mp hsome
  exact absurd (h.fresh u task htask) (Nat.not_lt.mpr hu)

/-- Whoever has a ticket at the broker finds it. -/
theorem found_of_task (h : Replays k running x w) {u : Ticket} {task : EventHub.Task Action}
    (htask : x.tasks u = some task) : ∃ b, w.brokers[k]? = some b := by
  cases hb : w.brokers[k]? with
  | some b => exact ⟨b, rfl⟩
  | none => cases ((h.absent hb).1 u).symm.trans htask

end Replays

/-- The running task has done something to the calls that it holds, or has begun others. -/
structure Goes (k i : Nat) (ts : List Ticket) (x : Traffic Action) (w : World)
    (x' : Traffic Action) (w' : World) : Prop where
  replays : Replays k (some i) x' w'
  onward : Onward k x w x' w'
  serial : w.serial ≤ w'.serial
  rest : ∀ t, t ∉ ts → (t.task ≠ i ∨ t.serial < w.serial) → x'.tasks t = x.tasks t

/-- Where the running task lands, and with which tickets. -/
def Lands (k i : Nat) (ts : List Ticket) (x : Traffic Action) (w w' : World)
    (holds : Traffic Action → List Ticket → Prop) : Prop :=
  ∃ x' ts', Goes k i ts x w x' w' ∧ holds x' ts' ∧ Owns i w' ts' ∧
    ∀ t ∈ ts', t ∈ ts ∨ w.serial ≤ t.serial

variable {k i : Nat} {ts : List Ticket} {x : Traffic Action} {w w' w'' : World}

/-- The task stays where it is. -/
theorem Replays.lands (h : Replays k (some i) x w)
    {holds : Traffic Action → List Ticket → Prop} (hholds : holds x ts) (hown : Owns i w ts) :
    Lands k i ts x w w holds :=
  ⟨x, ts, ⟨h, .refl x w, Nat.le_refl _, fun _ _ _ => rfl⟩, hholds, hown, fun _ ht => Or.inl ht⟩

theorem Replays.calm_lands (h : Replays k (some i) x w) (hcalm : Calm k w w')
    {holds : Traffic Action → List Ticket → Prop} (hholds : ∀ x', x'.tasks = x.tasks →
      x'.orphans = x.orphans → holds x' ts) (hown : Owns i w ts) :
    Lands k i ts x w w' holds := by
  obtain ⟨x', hreplays, honward, htasks, horphans⟩ := h.calm hcalm
  exact ⟨x', ts, ⟨hreplays, honward, hcalm.serial, fun t _ _ => by rw [htasks]⟩,
    hholds x' htasks horphans, hown.mono hcalm.serial, fun t ht => Or.inl ht⟩

/-- One thing after another. -/
theorem Lands.bind {holds holds' : Traffic Action → List Ticket → Prop}
    (h : Lands k i ts x w w' holds)
    (hnext : ∀ x' ts', Replays k (some i) x' w' → holds x' ts' → Owns i w' ts' →
      Lands k i ts' x' w' w'' holds') : Lands k i ts x w w'' holds' := by
  obtain ⟨x', ts', hgoes, hholds, hown, hts'⟩ := h
  obtain ⟨x'', ts'', hgoes', hholds', hown', hts''⟩ := hnext x' ts' hgoes.replays hholds hown
  refine ⟨x'', ts'', ⟨hgoes'.replays, hgoes.onward.trans hgoes'.onward,
    Nat.le_trans hgoes.serial hgoes'.serial, ?_⟩, hholds', hown', ?_⟩
  · intro t hnot hold
    have hnot' : t ∉ ts' := by
      intro ht
      rcases hts' t ht with hmem | hfresh
      · exact hnot hmem
      · rcases hold with htask | hserial
        · exact htask (hown.own t ht).1
        · exact absurd hserial (Nat.not_lt.mpr hfresh)
    have hold' : t.task ≠ i ∨ t.serial < w'.serial :=
      hold.imp_right fun hserial => Nat.lt_of_lt_of_le hserial hgoes.serial
    exact (hgoes'.rest t hnot' hold').trans (hgoes.rest t hnot hold)
  · intro t ht
    rcases hts'' t ht with hmem | hfresh
    · exact hts' t hmem
    · exact Or.inr (Nat.le_trans hgoes.serial hfresh)

/-- What was held may be held in another order, or no longer. -/
theorem Lands.mono {holds holds' : Traffic Action → List Ticket → Prop}
    (h : Lands k i ts x w w' holds)
    (himp : ∀ x' ts', holds x' ts' → ∃ ts'', ts''.Subperm ts' ∧ holds' x' ts'') :
    Lands k i ts x w w' holds' := by
  obtain ⟨x', ts', hgoes, hholds, hown, hts'⟩ := h
  obtain ⟨ts'', hsub, hholds'⟩ := himp x' ts' hholds
  refine ⟨x', ts'', hgoes, hholds', ⟨?_, ?_⟩, fun t ht => hts' t (hsub.subset ht)⟩
  · obtain ⟨list, hperm, hlist⟩ := hsub
    exact hperm.nodup (hown.nodup.sublist hlist)
  · exact fun t ht => hown.own t (hsub.subset ht)

/-- What the running task holds besides stays as it was. -/
theorem Lands.beside {holds : Traffic Action → List Ticket → Prop} {tf : List Ticket}
    (h : Lands k i ts x w w' holds) (hown : Owns i w (ts ++ tf)) :
    Lands k i (ts ++ tf) x w w' fun x' ts' =>
      ∃ ti, ts' = ti ++ tf ∧ holds x' ti ∧ ∀ t ∈ tf, x'.tasks t = x.tasks t := by
  obtain ⟨x', ti, hgoes, hholds, hown', hti⟩ := h
  obtain ⟨-, hnodup, hdisjoint⟩ := List.nodup_append.mp hown.nodup
  have hapart : ∀ t ∈ tf, t ∉ ts := fun t ht hmem => hdisjoint t hmem t ht rfl
  have hold : ∀ t ∈ tf, t.task = i ∧ t.serial < w.serial := fun t ht =>
    hown.own t (List.mem_append_right _ ht)
  refine ⟨x', ti ++ tf, ⟨hgoes.replays, hgoes.onward, hgoes.serial, ?_⟩,
    ⟨ti, rfl, hholds, ?_⟩, ⟨?_, ?_⟩, ?_⟩
  · intro t hnot
    exact hgoes.rest t fun hmem => hnot (List.mem_append_left _ hmem)
  · intro t ht
    exact hgoes.rest t (hapart t ht) (Or.inr (hold t ht).2)
  · refine List.nodup_append.mpr ⟨hown'.nodup, hnodup, ?_⟩
    rintro t ht _ hmem rfl
    rcases hti t ht with hin | hfresh
    · exact hapart t hmem hin
    · exact absurd (hold t hmem).2 (Nat.not_lt.mpr hfresh)
  · intro t ht
    rcases List.mem_append.mp ht with hin | hmem
    · exact hown'.own t hin
    · exact ⟨(hold t hmem).1, Nat.lt_of_lt_of_le (hold t hmem).2 hgoes.serial⟩
  · intro t ht
    rcases List.mem_append.mp ht with hin | hmem
    · exact (hti t hin).imp_left (List.mem_append_left _)
    · exact Or.inl (List.mem_append_right _ hmem)

end EventHub.Simulation
