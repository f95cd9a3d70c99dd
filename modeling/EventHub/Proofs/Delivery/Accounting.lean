import EventHub.Proofs.Panics.Dispatches

/-!
The account of a dispatch. Each listener that was found is called once, in order and with the
event, whatever becomes of the ones before it. The report counts those that took the event and
lists the others, each with the name of its service and its own error.
-/

namespace EventHub

/-- What a report says about a listener that did not take the event. -/
def failure? (service : String) : Except ListenerError Unit → Option FailedDelivery
  | .ok () => none
  | .error e => some ⟨service, e⟩

/-- The failures among calls, in their order. -/
def failuresOf (entries : List (String × Except ListenerError Unit)) : List FailedDelivery :=
  entries.filterMap fun entry => failure? entry.1 entry.2

/-- A report accounts for calls that ended like this: each service with what its listener
returned, or the error that stands for how it broke off. -/
structure Report.Accounts (r : Report) (event : Event)
    (entries : List (String × Except ListenerError Unit)) : Prop where
  kind : r.kind = event.kind
  seq : r.seq = event.seq
  delivered : r.delivered = entries.countP fun entry => entry.2 matches .ok ()
  failures : r.failures = failuresOf entries
  matched : r.matched = entries.length
  clean : r.isClean = true ↔ ∀ entry ∈ entries, entry.2 = .ok ()

namespace Report

/-- What calls come to, for the report. -/
def entriesOf {L : Type} (calls : List (Subscription L × Verdict)) :
    List (String × Except ListenerError Unit) :=
  calls.map fun c => (c.1.service.name, c.2.result)

theorem afterAll_eq {L : Type} (r : Report) (calls : List (Subscription L × Verdict)) :
    r.afterAll calls = { r with
      delivered := r.delivered + (entriesOf calls).countP fun entry => entry.2 matches .ok ()
      failures := r.failures ++ failuresOf (entriesOf calls) } := by
  induction calls generalizing r with
  | nil => simp [afterAll, entriesOf, failuresOf]
  | cons c rest ih =>
      have hrest := ih (r.after c.1.service.name c.2)
      rw [afterAll, List.foldl_cons, ← afterAll, hrest]
      cases hresult : c.2.result with
      | ok _ =>
          simp only [after, hresult, entriesOf, failuresOf, List.map_cons, List.countP_cons,
            List.filterMap_cons, failure?]
          simp [Nat.add_assoc, Nat.add_comm 1]
      | error e =>
          simp only [after, hresult, entriesOf, failuresOf, List.map_cons, List.countP_cons,
            List.filterMap_cons, failure?]
          simp

/-- Each call is counted or listed. -/
theorem countP_add_failures (entries : List (String × Except ListenerError Unit)) :
    (entries.countP fun entry => entry.2 matches .ok ()) + (failuresOf entries).length =
      entries.length := by
  induction entries with
  | nil => rfl
  | cons entry rest ih =>
      obtain ⟨service, result⟩ := entry
      cases result <;> simp [failuresOf, failure?] at ih ⊢ <;> omega

theorem failuresOf_eq_nil_iff (entries : List (String × Except ListenerError Unit)) :
    failuresOf entries = [] ↔ ∀ entry ∈ entries, entry.2 = .ok () := by
  rw [failuresOf, List.filterMap_eq_nil_iff]
  refine forall₂_congr fun entry _ => ?_
  obtain ⟨service, result⟩ := entry
  cases result <;> simp [failure?]

/-- The report of a dispatch accounts for all of its calls. -/
theorem accounts_afterAll {L : Type} (event : Event) (calls : List (Subscription L × Verdict)) :
    ((ofEvent event).afterAll calls).Accounts event (entriesOf calls) := by
  rw [afterAll_eq]
  have hcount := countP_add_failures (entriesOf calls)
  refine ⟨rfl, rfl, Nat.zero_add _, List.nil_append _, ?_, ?_⟩
  · simpa [matched, ofEvent] using hcount
  · simpa [isClean, ofEvent] using failuresOf_eq_nil_iff (entriesOf calls)

end Report

namespace Dispatch

variable {L : Type}

/-- Goes on with a dispatch whose listeners end with these verdicts, one after another, and notes
which listener was called with which event. -/
def play : List Verdict → Broker L × Next L → List (Subscription L × Event) × Next L
  | verdict :: later, (b, .deliver s d) =>
    let played := play later (ended b d s verdict)
    ((s, d.event) :: played.1, played.2)
  | _, (_, next) => ([], next)

/-- With a verdict for each listener, all of them are called and the dispatch has its report. -/
theorem play_advance (b : Broker L) (d : Dispatch L) (verdicts : List Verdict)
    (h : verdicts.length = d.remaining.length) :
    play verdicts (advance b d) = (d.remaining.map fun s => (s, d.event),
      .finished (.ok (d.report.afterAll (d.remaining.zip verdicts)))) := by
  generalize hlisteners : d.remaining = listeners at h
  induction listeners generalizing b d verdicts with
  | nil =>
      obtain rfl := List.length_eq_zero_iff.mp h
      rw [advance, hlisteners]
      rfl
  | cons s listeners ih =>
      cases verdicts with
      | nil => cases h
      | cons verdict later =>
          have hrest := ih (settle b { d with remaining := listeners } s verdict).1
            ({ d with remaining := listeners }.settled s verdict) later rfl (Nat.succ.inj h)
          have hended : ended b { d with remaining := listeners } s verdict =
              advance (settle b { d with remaining := listeners } s verdict).1
                ({ d with remaining := listeners }.settled s verdict) := by
            rw [← settle_snd b]
            rfl
          rw [advance, hlisteners]
          simp only [play]
          rw [hended, hrest]
          rfl

/-- A dispatch from the answer of the registry on. -/
def playFound (b : Broker L) (event : Event) (found : List (Subscription L))
    (verdicts : List Verdict) : List (Subscription L × Event) × Next L :=
  play verdicts (asked event (b, .finished (.ok (.subscriptions found))))

/-- A dispatch calls every listener that was found, and its report accounts for what became of
each. -/
structure Accounted (b : Broker L) (event : Event) (found : List (Subscription L))
    (verdicts : List Verdict) : Prop where
  called : (playFound b event found verdicts).1 = found.map fun s => (s, event)
  reported : ∃ r, (playFound b event found verdicts).2 = .finished (.ok r) ∧
    r.Accounts event ((found.zip verdicts).map fun c => (c.1.service.name, c.2.result))

theorem accounted (b : Broker L) (event : Event) (found : List (Subscription L))
    (verdicts : List Verdict) (h : verdicts.length = found.length) :
    Accounted b event found verdicts := by
  have hplayed : playFound b event found verdicts = _ :=
    play_advance b (.fresh event found) verdicts h
  refine ⟨by rw [hplayed]; rfl, _, by rw [hplayed], ?_⟩
  exact Report.accounts_afterAll event (found.zip verdicts)

/-- Two dispatches that differ in the verdict on one listener: they call the same listeners with
the same event, and their reports differ in the entry of that listener alone. -/
structure Isolated (b : Broker L) (event : Event) (front back : List (Subscription L))
    (s : Subscription L) (before after : List Verdict) (verdict other : Verdict) : Prop where
  called : (playFound b event (front ++ s :: back) (before ++ verdict :: after)).1 =
    (playFound b event (front ++ s :: back) (before ++ other :: after)).1
  reported : ∃ r r' above below,
    (playFound b event (front ++ s :: back) (before ++ verdict :: after)).2 = .finished (.ok r) ∧
    (playFound b event (front ++ s :: back) (before ++ other :: after)).2 = .finished (.ok r') ∧
    r.failures = above ++ (failure? s.service.name verdict.result).toList ++ below ∧
    r'.failures = above ++ (failure? s.service.name other.result).toList ++ below

theorem failuresOf_zip (front back : List (Subscription L)) (s : Subscription L)
    (before after : List Verdict) (verdict : Verdict) (h : before.length = front.length) :
    failuresOf (((front ++ s :: back).zip (before ++ verdict :: after)).map fun c =>
        (c.1.service.name, c.2.result)) =
      failuresOf ((front.zip before).map fun c => (c.1.service.name, c.2.result)) ++
        (failure? s.service.name verdict.result).toList ++
        failuresOf ((back.zip after).map fun c => (c.1.service.name, c.2.result)) := by
  rw [List.zip_append h.symm, List.zip_cons_cons, List.map_append, List.map_cons, failuresOf,
    List.filterMap_append, List.filterMap_cons]
  cases failure? s.service.name verdict.result <;> simp [failuresOf]

theorem isolated (b : Broker L) (event : Event) (front back : List (Subscription L))
    (s : Subscription L) (before after : List Verdict) (verdict other : Verdict)
    (hfront : before.length = front.length) (hback : after.length = back.length) :
    Isolated b event front back s before after verdict other := by
  have hlength (v : Verdict) : (before ++ v :: after).length = (front ++ s :: back).length := by
    simp [hfront, hback]
  obtain ⟨hcalled, r, hr, haccounts⟩ := accounted b event _ _ (hlength verdict)
  obtain ⟨hcalled', r', hr', haccounts'⟩ := accounted b event _ _ (hlength other)
  have hfailures := haccounts.failures.trans (failuresOf_zip _ _ s _ after verdict hfront)
  have hfailures' := haccounts'.failures.trans (failuresOf_zip _ _ s _ after other hfront)
  exact ⟨hcalled.trans hcalled'.symm, r, r', _, _, hr, hr', hfailures, hfailures'⟩

end Dispatch

end EventHub
