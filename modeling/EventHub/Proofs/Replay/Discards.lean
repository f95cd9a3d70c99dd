import EventHub.Proofs.Replay.Poll

/-!
Discards that nobody waits for. The task of such a discard begins with a slot that was
given up, and has a ticket of its own from then on.
-/

namespace EventHub.Simulation.Sim

open EventHub.Script

variable {k i : Nat} {t : Ticket} {id : ServiceId}

/-- The task of a discard that waits for room. -/
def Discarding (t : Ticket) (id : ServiceId) : Held := fun x ts =>
  ts = [t] ∧ x.tasks t = some ⟨.discarding id, false⟩

theorem local_discarding (t : Ticket) (id : ServiceId) : (Discarding t id).Local := by
  rintro x x' _ ⟨rfl, htask⟩ htasks
  exact ⟨rfl, (htasks t (List.mem_singleton_self t)).trans htask⟩

/-- The discard is posted, or there is no mailbox any more, or it waits for room. -/
def PostedOr (k : Nat) (t : Ticket) (id : ServiceId) (f : Future .unit) : Held := fun x ts =>
  (f = .value () ∧ ts = []) ∨ (f = .wait (.posting k t id) ∧ Discarding t id x ts)

theorem plays_posting :
    Plays k i (Discarding t id) (posting k t id) (PostedOr k t id) := by
  let room (posted : Mailbox.Posted) : Held := fun x ts =>
    posted = .waits → Discarding t id x ts
  refine .bind (Q := room) (plays_onBroker ?_ ?_ ?_) fun posted => ?_
  · rintro - x ts _ _ ⟨hts, htask⟩
    have hgo : x.turn t .goOn = x.posting t id (x.broker.mailbox.send t ⟨.discard id, none⟩) :=
      Traffic.turn_some htask .goOn
    refine ⟨t, .goOn, hts, ?_, ?_⟩
    · rw [hgo]
      cases hsend : x.broker.mailbox.send t ⟨.discard id, none⟩ with
      | mk mailbox posted => cases posted <;> rfl
    · intro x' htasks _ hwaits
      refine ⟨rfl, ?_⟩
      rw [htasks, hgo]
      cases hsend : x.broker.mailbox.send t ⟨.discard id, none⟩ with
      | mk mailbox posted =>
          obtain rfl : posted = .waits := by simpa [hsend] using hwaits
          exact Traffic.put_tasks _ _ _ _
  · rintro - x ts ⟨_, htask⟩ hnone
    cases (hnone t).symm.trans htask
  · exact fun hne => absurd rfl hne
  · have hdone : Plays k i (room posted) (pure (Future.value ())) (PostedOr k t id) := by
      intro x ts w h _ _
      exact ⟨x, [], ⟨h, .refl x w, Nat.le_refl _, fun _ _ _ => rfl⟩, Or.inl ⟨rfl, rfl⟩, .nil i w,
        by simp⟩
    cases posted with
    | waits => exact .pure fun x ts h => Or.inr ⟨rfl, h rfl⟩
    | accepted => exact hdone
    | refused => exact hdone

theorem local_postedOr (f : Future .unit) : (PostedOr k t id f).Local := by
  rintro x x' ts (⟨hf, hts⟩ | ⟨hf, hat⟩) htasks
  · exact Or.inl ⟨hf, hts⟩
  · exact Or.inr ⟨hf, local_discarding t id hat htasks⟩

/-- A discard that is polled goes on with its ticket, or is over. -/
theorem plays_poll_posting (n : Nat) :
    Plays k i (Discarding t id) (poll n (.wait (.posting k t id)))
      (PostedOr k t id) := by
  have hwaiting : ∀ x ts, Discarding t id x ts →
      PostedOr k t id (.wait (.posting k t id)) x ts := fun x ts h => Or.inr ⟨rfl, h⟩
  have hlisten (w : Wait .unit) : Plays k i (PostedOr k t id (.wait w)) (listen w)
      fun _ => PostedOr k t id (.wait w) := by
    rintro x ts w' h (⟨hdone, -⟩ | ⟨hwait, hat⟩) hown
    · cases hdone
    · cases hwait
      exact h.lands (Or.inr ⟨rfl, hat⟩) hown
  have hposting : Plays k i (PostedOr k t id (.wait (.posting k t id))) (posting k t id)
      (PostedOr k t id) := by
    refine plays_posting.weaken fun x ts h => ?_
    rcases h with ⟨hdone, -⟩ | ⟨-, hat⟩
    · cases hdone
    · exact hat
  induction n with
  | zero => exact .pure hwaiting
  | succ n ih =>
      rw [poll]
      refine .bind ((plays_take local_postedOr hlisten (plays_of hposting)).weaken hwaiting)
        fun p => ?_
      cases p with
      | pending w => exact .pure fun _ _ h => h
      | next f =>
          rintro x ts w h (⟨hf, hts⟩ | ⟨hf, hat⟩) hown
          · obtain rfl : f = .value () := hf
            have hdone := poll_value n (a := .unit) () w
            rw [hdone]
            exact h.lands (Or.inl ⟨rfl, hts⟩) hown
          · obtain rfl : f = .wait (.posting k t id) := hf
            exact ih x ts w h hat hown

/-- The discard of a slot that was given up begins with a ticket of its own. -/
theorem plays_begin_discard (id : ServiceId) :
    Plays k i (fun x => Posts k x (.begin (.discard k id))) (begin (.discard k id))
      fun f x ts => ∃ t, f = .wait (.posting k t id) ∧ Discarding t id x ts := by
  rw [Sim.begin]
  refine .bind ((plays_ticket_orphans (id ∈ ·)).weaken ?_) fun t => ?_
  · rintro x _ ⟨_, horphan⟩
    exact ⟨rfl, horphan⟩
  · rintro x ts w h ⟨⟨rfl, hnone⟩, horphan⟩ hown
    cases hb : w.brokers[k]? with
    | none => simp [(h.absent hb).2] at horphan
    | some b =>
        have hturn : x.turn t (.begin (.discard id)) = x.put t x.broker (.discarding id) := by
          simp only [Traffic.turn, hnone, Traffic.start, if_pos horphan]
        have hset : w.brokers.set! k x.broker.flushed = w.brokers := by
          obtain ⟨hlt, heq⟩ := Array.getElem?_eq_some_iff.mp hb
          rw [h.flushed hb, (h.found b hb).1, Array.set!_eq_setIfInBounds, Array.setIfInBounds,
            dif_pos hlt, ← heq, Array.set_getElem_self]
        have hcalm : Calm k { w with brokers := w.brokers.set! k x.broker.flushed } w := by
          rw [hset]
          exact .refl w
        refine (h.turn hb hown (.begin (.discard id)) (by rw [hturn]; rfl) hcalm).mono ?_
        rintro x' ts' ⟨rfl, htasks, -⟩
        refine ⟨[t], .refl _, t, rfl, rfl, ?_⟩
        rw [htasks, hturn, Traffic.put_tasks]

/-- What a discard holds when it is polled is the ticket of its turn. -/
theorem plays_poll_posts (n : Nat) (f : Future .unit) :
    Plays k i (fun x => Posts k x f) (poll n f) fun f x ts => f.Holds k x ts ∨ Posts k x f ts := by
  have hsettled (t : Ticket) (id : ServiceId) (f : Future .unit) (x : Traffic Action)
      (ts : List Ticket) (h : PostedOr k t id f x ts) : f.Holds k x ts ∨ Posts k x f ts := by
    rcases h with ⟨rfl, hts⟩ | ⟨rfl, rfl, htask⟩
    · exact Or.inl hts
    · exact Or.inr (.wait t id htask)
  cases n with
  | zero => exact .pure fun _ _ h => Or.inr h
  | succ n =>
      intro x ts w h hposts hown
      cases hposts with
      | begin id horphan =>
          have hpoll : Plays k i (fun x => Posts k x (.begin (.discard k id)))
              (poll (n + 1) (.begin (.discard k id)))
              fun f x ts => f.Holds k x ts ∨ Posts k x f ts := by
            refine .bind (plays_begin_discard id) fun f => ?_
            rintro x ts w h ⟨t, rfl, hat⟩ hown
            refine (plays_poll_posting n x ts w h hat hown).mono ?_
            exact fun x' ts' hp => ⟨ts', .refl _, hsettled t id _ x' ts' hp⟩
          exact hpoll x [] w h (.begin id horphan) hown
      | wait t id htask =>
          refine (plays_poll_posting (n + 1) x [t] w h ⟨rfl, htask⟩ hown).mono ?_
          exact fun x' ts' hp => ⟨ts', .refl _, hsettled t id _ x' ts' hp⟩

end EventHub.Simulation.Sim
