import EventHub.Proofs.Traffic.Turned

/-!
Every run is orderly: each task stands somewhere with its slot, and every confirmation and
every discard in the mailbox, or taken from it, is founded.
-/

namespace EventHub.Traffic

variable {L : Type} {x : Traffic L} {t u : Ticket}

/-- How a setup has ended so far, once this move is made. -/
def hears (x : Traffic L) (ended : Ticket → Handle → Option String → Prop) (m : Move L)
    (t : Ticket) (handle : Handle) (failure : Option String) : Prop :=
  ended t handle failure ∨
    ∃ outcome name owner, m = .task t (.setUpEnded outcome) ∧
      x.tasks t = some ⟨.registering name (.settingUp owner handle), false⟩ ∧
      Registration.failure? outcome = failure

section Hears

variable {ended : Ticket → Handle → Option String → Prop} {m : Move L}

theorem hears_of_move (h : ∀ outcome, m ≠ .task t (.setUpEnded outcome)) :
    x.hears ended m t = ended t := by
  funext handle failure
  apply propext
  constructor
  · rintro (hold | ⟨outcome, name, owner, hm, -⟩)
    · exact hold
    · exact absurd hm (h outcome)
  · exact Or.inl

theorem hears_of_task
    (h : ∀ name owner handle,
      x.tasks t ≠ some ⟨.registering name (.settingUp owner handle), false⟩) :
    x.hears ended m t = ended t := by
  funext handle failure
  apply propext
  constructor
  · rintro (hold | ⟨outcome, name, owner, -, htask, -⟩)
    · exact hold
    · exact absurd htask (h name owner handle)
  · exact Or.inl

/-- The setup that ends now is the only one. -/
theorem hears_only {name : String} {owner : Ticket} {handle : Handle}
    (hnever : ∀ h f, ¬ ended t h f)
    (htask : x.tasks t = some ⟨.registering name (.settingUp owner handle), false⟩)
    (outcome : Outcome (Except ServiceError Unit)) :
    Only (x.hears ended (.task t (.setUpEnded outcome)) t) handle
      (Registration.failure? outcome) := by
  intro h f
  constructor
  · rintro (hold | ⟨outcome', name', owner', hm, htask', hf⟩)
    · exact absurd hold (hnever h f)
    · obtain ⟨-, rfl⟩ : t = t ∧ outcome = outcome' := by simpa using hm
      rw [htask] at htask'
      have heq : handle = h := by
        simp only [Option.some.injEq, Task.mk.injEq, Activity.registering.injEq,
          Registration.settingUp.injEq] at htask'
        exact htask'.1.2.2
      exact ⟨heq.symm, hf.symm⟩
  · rintro ⟨rfl, rfl⟩
    exact Or.inr ⟨outcome, name, owner, rfl, htask, rfl⟩

end Hears

/-- Every task stands somewhere with its slot, and what was posted about slots is
founded. -/
structure Orderly (x : Traffic L) (ended : Ticket → Handle → Option String → Prop) : Prop where
  lawful : x.Lawful
  sane : x.broker.Sane
  stands : ∀ t task, x.tasks t = some task → x.Stands t (ended t) task
  fresh : ∀ t, x.tasks t = none → ∀ h f, ¬ ended t h f
  founded : ∀ e ∈ x.posted, x.Founded e
  orphans : ∀ id ∈ x.orphans, x.Forsaken id
  /-- A discard that was taken has left nothing to decide. -/
  discarded : ∀ s ∈ x.served, ∀ id, s.request.command = .discard id →
    (Served.stage x.served id).IsFinal
  waits : ∀ s ∈ x.served, s.request.callerWaits = true → s.caller ≠ none

namespace Orderly

variable {ended : Ticket → Handle → Option String → Prop}

/-- Nobody but the owner decides about a slot as long as the owner has not left. -/
theorem decided (h : x.Orderly ended) {handle : Handle} (hissued : Issued x.served t handle)
    (hstays : ¬ x.Forsakes t) :
    ∀ s ∈ x.served, s.request.Decides handle.id → s.caller = some t := by
  intro s hmem hdecides
  obtain ⟨caller, command, waits⟩ := s
  have hfounded := h.founded ⟨command, caller⟩
    (List.mem_append_left _ (List.mem_map.mpr ⟨_, hmem, rfl⟩))
  cases command with
  | confirm id name =>
      obtain rfl : id = handle.id := hdecides
      obtain ⟨u, hcaller, hissued'⟩ := hfounded
      obtain ⟨rfl, -⟩ := hissued.unique hissued' rfl
      exact hcaller
  | discard id =>
      obtain rfl : id = handle.id := hdecides
      obtain ⟨u, other, hissued', hid, hforsakes⟩ := hfounded
      obtain ⟨rfl, -⟩ := hissued.unique hissued' hid.symm
      exact absurd hforsakes hstays
  | reserve name => exact hdecides.elim
  | subscribe service listener => exact hdecides.elim
  | snapshot kind => exact hdecides.elim
  | services => exact hdecides.elim

theorem not_forsakes {a : Activity L} (htask : x.tasks t = some ⟨a, false⟩)
    (ha : ∀ name e, a ≠ .registered name (.error e)) : ¬ x.Forsakes t := by
  rintro (⟨name, e, h⟩ | ⟨name, stage, h, -⟩)
  · obtain rfl : a = _ := by simpa [htask] using h
    exact ha name e rfl
  · simp [htask] at h

/-- A task that waits for nothing has a turn. -/
theorem turn_over {a : Activity L} {isGivenUp : Bool} (htask : x.tasks t = some ⟨a, isGivenUp⟩)
    (hover : isGivenUp = true ∨ (∃ name result, a = .registered name result) ∨
      ∃ id, a = .discarded id) (turn : Turn L) : x.turn t turn = x := by
  rcases hover with rfl | ⟨name, result, rfl⟩ | ⟨id, rfl⟩
  · simp [Traffic.turn, htask]
  · cases isGivenUp <;> cases turn <;> simp [Traffic.turn, htask] <;> rfl
  · cases isGivenUp <;> cases turn <;> simp [Traffic.turn, htask] <;> rfl

/-- A registration that waits for its slot has a turn. -/
theorem turned_reserving (h : x.Orderly ended) {name : String} {call : Call L}
    (htask : x.tasks t = some ⟨.registering name (.reserving name call), false⟩)
    (haccount : x.broker.Account x.served t (.reserve name) [] call)
    (hended : ∀ h f, ¬ ended t h f) (turn : Turn L) :
    Turned x (x.act t (.registering name (.reserving name call)) turn) t (ended t) := by
  cases turn with
  | goOn =>
      have hprogress := haccount.resume
      have hposts : Broker.Posts (· = ⟨.reserve name, some t⟩) x.broker
          (x.broker.resume call).1 := by
        apply Broker.Posts.resume
        intro e hmem
        cases haccount with
        | sending hidle hpast => exact (Option.some.inj hmem).symm
        | queued | answered | lost => cases hmem
      have hclosed (e : BrokerError) : (x.broker.resume call).2 = .finished (.error e) →
          (x.broker.resume call).1.isClosed = true := haccount.closed_of_resume h.sane
      have hturned := turned_reserved hprogress hposts hclosed hended
      have hticket := haccount.ticket
      cases call with
      | sending u c =>
          obtain rfl : u = t := hticket
          exact hturned
      | awaiting u =>
          obtain rfl : u = t := hticket
          exact hturned
  | giveUp => exact turned_leaveEarly haccount
  | begin s => exact .same htask (.reserving name call haccount hended)
  | listenerEnded verdict => exact .same htask (.reserving name call haccount hended)
  | setUpEnded outcome => exact .same htask (.reserving name call haccount hended)

/-- A registration whose service sets itself up has a turn. -/
theorem turned_settingUp (h : x.Orderly ended) {handle : Handle}
    (htask : x.tasks t = some ⟨.registering handle.name (.settingUp t handle), false⟩)
    (hreserved : x.Reserved t handle) (hended : ∀ h f, ¬ ended t h f) (turn : Turn L) :
    Turned x (x.act t (.registering handle.name (.settingUp t handle)) turn) t
      (x.hears ended (.task t turn) t) := by
  have hstays (turn : Turn L) (hturn : ∀ outcome, turn ≠ .setUpEnded outcome) :
      x.hears ended (.task t turn) t = ended t := by
    apply hears_of_move
    intro outcome heq
    obtain ⟨-, rfl⟩ : t = t ∧ turn = .setUpEnded outcome := by simpa using heq
    exact hturn outcome rfl
  cases turn with
  | setUpEnded outcome =>
      have honly := hears_only hended htask outcome
      cases hfailure : Registration.failure? outcome with
      | none =>
          rw [hfailure] at honly
          have hissued := hreserved.issued
          have hdecided := h.decided hissued (not_forsakes htask (by simp))
          have hturned := turned_confirmed hreserved.toOwns
            (hreserved.idle.call hreserved.past _) (.call _ t _)
            (fun _ => Broker.closed_of_call) hdecided honly
          simp only [act, setUpEnded, Registration.setUpEnded, hfailure]
          exact hturned
      | some reason =>
          rw [hfailure] at honly
          simp only [act, setUpEnded, Registration.setUpEnded, hfailure]
          have hkept (next : Registration.Next L) : (x.registering t handle.name
              ⟨x.broker.note .error "service initialization failed"
                [("service", handle.text), ("reason", reason)], next, none⟩).Reserved t handle :=
            ⟨⟨hreserved.issued, hreserved.sole, hreserved.queue⟩,
              hreserved.idle.spared ⟨rfl, rfl, rfl, rfl, id⟩, hreserved.past⟩
          exact .registering (registering_suspended _ _ _ _ _ _)
            (.discarding handle reason (hkept _) honly) (.note _ _ _ _) (by simp)
  | goOn =>
      rw [hstays _ (by simp)]
      have hkept : (x.registering t handle.name
          ⟨x.broker, .setUp t handle, none⟩).Reserved t handle :=
        ⟨⟨hreserved.issued, hreserved.sole, hreserved.queue⟩,
          hreserved.idle.spared ⟨rfl, rfl, rfl, rfl, id⟩, hreserved.past⟩
      exact .registering (registering_setUp _ _ _ _ _ _ _) (.settingUp handle hkept hended)
        (.refl _) (by simp [Registration.resume])
  | giveUp =>
      rw [hstays _ (by simp)]
      exact turned_leaveLate hreserved.toOwns rfl h.sane
  | begin s =>
      rw [hstays _ (by simp)]
      exact .same htask (.settingUp handle hreserved hended)
  | listenerEnded verdict =>
      rw [hstays _ (by simp)]
      exact .same htask (.settingUp handle hreserved hended)

theorem turned_discarding (h : x.Orderly ended) {handle : Handle} {reason : String}
    (htask : x.tasks t = some ⟨.registering handle.name (.discarding t handle reason), false⟩)
    (hreserved : x.Reserved t handle) (hended : Only (ended t) handle (some reason))
    (turn : Turn L) :
    Turned x (x.act t (.registering handle.name (.discarding t handle reason)) turn) t
      (ended t) := by
  cases turn with
  | goOn => exact turned_discarded hreserved h.sane hended
  | giveUp => exact turned_leaveLate hreserved.toOwns rfl h.sane
  | begin s => exact .same htask (.discarding handle reason hreserved hended)
  | listenerEnded verdict => exact .same htask (.discarding handle reason hreserved hended)
  | setUpEnded outcome => exact .same htask (.discarding handle reason hreserved hended)

theorem turned_confirming (h : x.Orderly ended) {handle : Handle} {call : Call L}
    (htask : x.tasks t = some ⟨.registering handle.name (.confirming handle call), false⟩)
    (howns : x.Owns t handle)
    (haccount : x.broker.Account x.served t (.confirm handle.id handle.name)
      [⟨.reserve handle.name, true⟩] call)
    (hended : Only (ended t) handle none) (turn : Turn L) :
    Turned x (x.act t (.registering handle.name (.confirming handle call)) turn) t (ended t) := by
  have hsame := Turned.same htask (.confirming handle call howns haccount hended)
  cases turn with
  | goOn =>
      have hposts : Broker.Posts (· = ⟨.confirm handle.id handle.name, some t⟩) x.broker
          (x.broker.resume call).1 := by
        apply Broker.Posts.resume
        intro e hmem
        cases haccount with
        | sending hidle hpast => exact (Option.some.inj hmem).symm
        | queued | answered | lost => cases hmem
      exact turned_confirmed howns haccount.resume hposts
        (fun _ => haccount.closed_of_resume h.sane)
        (h.decided howns.issued (not_forsakes htask (by simp))) hended
  | giveUp => exact turned_leaveLate howns rfl h.sane
  | begin s => exact hsame
  | listenerEnded verdict => exact hsame
  | setUpEnded outcome => exact hsame

/-- A task that has begun has a turn. -/
theorem turned (h : x.Orderly ended) {task : Task L} (htask : x.tasks t = some task)
    (turn : Turn L) : Turned x (x.turn t turn) t (x.hears ended (.task t turn) t) := by
  have hstands := h.stands t task htask
  by_cases hsettingUp : ∃ name owner handle,
      task = ⟨.registering name (.settingUp owner handle), false⟩
  · obtain ⟨name, owner, handle, rfl⟩ := hsettingUp
    rw [turn_some htask]
    cases hstands with
    | other _ _ hplain => exact hplain.elim
    | settingUp _ hreserved hended => exact h.turned_settingUp htask hreserved hended turn
  · rw [hears_of_task (by
      intro name owner handle heq
      exact hsettingUp ⟨name, owner, handle, Option.some.inj (htask.symm.trans heq)⟩)]
    have hsame := Turned.same htask hstands
    cases hstands with
    | other a isGivenUp hplain hasks hmessage =>
        cases isGivenUp with
        | true =>
            rw [turn_over htask (Or.inl rfl)]
            exact hsame
        | false =>
            rw [turn_some htask]
            exact turned_other htask hplain hasks hmessage turn
    | posting id hasks horphan =>
        rw [turn_some htask]
        cases turn with
        | goOn => exact turned_posting hasks horphan h.orphans h.sane htask
        | begin | listenerEnded | setUpEnded | giveUp => exact hsame
    | posted id =>
        rw [turn_over htask (Or.inr (Or.inr ⟨id, rfl⟩))]
        exact hsame
    | reserving name call haccount hended =>
        rw [turn_some htask]
        exact h.turned_reserving htask haccount hended turn
    | settingUp handle => exact absurd ⟨_, _, _, rfl⟩ hsettingUp
    | discarding handle reason hreserved hended =>
        rw [turn_some htask]
        exact h.turned_discarding htask hreserved hended turn
    | confirming handle call howns haccount hended =>
        rw [turn_some htask]
        exact h.turned_confirming htask howns haccount hended turn
    | admitted | failed | refused | unconfirmed =>
        rw [turn_over htask (Or.inr (Or.inl ⟨_, _, rfl⟩))]
        exact hsame
    | leftEarly | leftLate =>
        rw [turn_over htask (Or.inl rfl)]
        exact hsame

/-- Whoever has forsaken a slot stays where it is. -/
theorem forsakes_turn (h : x.Orderly ended) (hforsakes : x.Forsakes t) (u : Ticket)
    (turn : Turn L) : (x.turn u turn).Forsakes t := by
  by_cases heq : t = u
  · subst heq
    have hsame : x.turn t turn = x := by
      rcases hforsakes with ⟨name, e, htask⟩ | ⟨name, stage, htask, -⟩
      · exact turn_over htask (Or.inr (Or.inl ⟨name, _, rfl⟩)) turn
      · exact turn_over htask (Or.inl rfl) turn
    rw [hsame]
    exact hforsakes
  · have htask := (leaves_turn h.lawful.owned heq turn).task
    rw [Forsakes, htask]
    exact hforsakes

theorem forsaken_turn (h : x.Orderly ended) {id : ServiceId} (hforsaken : x.Forsaken id)
    (u : Ticket) (turn : Turn L) : (x.turn u turn).Forsaken id := by
  obtain ⟨t, handle, hissued, hid, hforsakes⟩ := hforsaken
  refine ⟨t, handle, ?_, hid, h.forsakes_turn hforsakes u turn⟩
  rw [(books_turn h.lawful.owned u turn).2.1]
  exact hissued

theorem founded_turn (h : x.Orderly ended) {e : Envelope L} (hfounded : x.Founded e)
    (u : Ticket) (turn : Turn L) : (x.turn u turn).Founded e := by
  obtain ⟨command, caller⟩ := e
  cases command with
  | confirm id name =>
      obtain ⟨t, hcaller, hissued⟩ := hfounded
      refine ⟨t, hcaller, ?_⟩
      rw [(books_turn h.lawful.owned u turn).2.1]
      exact hissued
  | discard id => exact h.forsaken_turn hfounded u turn
  | _ => trivial

/-- The turn of one task keeps everything in order. -/
theorem of_turned (h : x.Orderly ended) {turn : Turn L}
    (hturned : Turned x (x.turn u turn) u (x.hears ended (.task u turn) u)) :
    (x.turn u turn).Orderly (x.hears ended (.task u turn)) := by
  obtain ⟨htask, hposts, horphans⟩ := hturned
  obtain ⟨-, hserved, -⟩ := books_turn h.lawful.owned u turn
  have hother (t : Ticket) (hne : t ≠ u) : x.hears ended (.task u turn) t = ended t := by
    apply hears_of_move
    intro outcome heq
    obtain ⟨rfl, -⟩ : u = t ∧ turn = .setUpEnded outcome := by simpa using heq
    exact hne rfl
  have hposted : ∀ e ∈ x.posted, e ∈ (x.turn u turn).posted := by
    intro e hmem
    rw [posted, hserved]
    rcases List.mem_append.mp hmem with hmem | hmem
    · exact List.mem_append_left _ hmem
    · exact List.mem_append_right _ (hposts.mem hmem)
  refine ⟨h.lawful.step (.task u turn), ?sane, ?stands, ?fresh, ?founded, ?orphans, ?discarded,
    ?waits⟩
  case sane =>
    have hne : (⟨u.task + 1, u.serial⟩ : Ticket) ≠ u := fun heq =>
      absurd (congrArg Ticket.task heq) (Nat.succ_ne_self _)
    exact h.sane.posts hposts (leaves_turn h.lawful.owned hne turn).broker.isClosed
  case stands =>
    intro t task hfound
    by_cases heq : t = u
    · subst heq
      obtain ⟨task', htask', hstands⟩ := htask
      obtain rfl := Option.some.inj (htask'.symm.trans hfound)
      exact hstands
    · have hleaves := leaves_turn h.lawful.owned heq turn
      rw [hother t heq]
      exact (h.stands t task (hleaves.task.symm.trans hfound)).left hleaves hposted
  case fresh =>
    intro t hnone
    by_cases heq : t = u
    · subst heq
      obtain ⟨task', htask', -⟩ := htask
      cases hnone.symm.trans htask'
    · rw [hother t heq]
      exact h.fresh t ((leaves_turn h.lawful.owned heq turn).task.symm.trans hnone)
  case founded =>
    intro e hmem
    rw [posted, hserved] at hmem
    rcases List.mem_append.mp hmem with hmem | hmem
    · exact h.founded_turn (h.founded e (List.mem_append_left _ hmem)) u turn
    · rcases hposts.of_mem hmem with hold | hnew
      · exact h.founded_turn (h.founded e (List.mem_append_right _ hold)) u turn
      · exact hnew
  case orphans =>
    intro id hmem
    rcases horphans id hmem with hold | hnew
    · exact h.forsaken_turn (h.orphans id hold) u turn
    · exact hnew
  case discarded =>
    rw [hserved]
    exact h.discarded
  case waits =>
    rw [hserved]
    exact h.waits

/-- An open broker stays sane while its registry works. -/
theorem sane_step {b : Broker L} (h : b.Sane) : b.step.Sane := by
  cases hclosed : b.isClosed with
  | true =>
      have hstays := (Broker.step_of_closed hclosed).1
      exact ⟨fun _ => hstays, fun _ _ => hstays⟩
  | false =>
      rcases Broker.step_of_open hclosed with ⟨hstep, -⟩ |
        ⟨e, rest, mailbox, woken, -, -, hopen, hstep, -⟩
      · rw [hstep]
        exact h
      · have hspec := Broker.serve_spec ({ b with mailbox }.wake woken) e
        have hshut {p : Prop} (hp : b.isClosed = true) : p := by
          rw [hclosed] at hp
          cases hp
        rw [hstep]
        refine ⟨?_, ?_⟩
        · intro hshut'
          rw [(hspec ⟨0, 0⟩).2.1] at hshut'
          have hisOpen : mailbox.isOpen = false := hshut'
          exact hshut (h.mailbox (hopen.symm.trans hisOpen))
        · intro t hlost
          have hold : b.replies.lookup t = some .lost := by
            rw [(hspec t).2.2] at hlost
            split at hlost
            · exact hlost
            · split at hlost
              · cases hlost
              · exact hlost
          exact hshut (h.lost t hold)

/-- A discard that the registry takes leaves nothing to decide. -/
theorem discarded_work (h : x.Orderly ended) :
    ∀ s ∈ (x.step .work).served, ∀ id, s.request.command = .discard id →
      (Served.stage (x.step .work).served id).IsFinal := by
  rintro ⟨caller, command, waits⟩ hmem id hdiscard
  obtain rfl : command = .discard id := hdiscard
  have hs := History.sound_of (x.served.map Served.request)
  simp only [Traffic.step, List.mem_append] at hmem
  rcases hmem with hold | hnew
  · have hfinal := h.discarded _ hold id rfl
    simp only [Traffic.step, Served.stage_append]
    rw [hs.stage_foldl hfinal]
    exact hfinal
  · have hposted := (Broker.mem_of_serving hnew).1
    obtain ⟨t, handle, hissued, rfl, -⟩ := h.founded _ (List.mem_append_right _ hposted)
    have hserving : x.broker.serving = [⟨caller, ⟨.discard handle.id, waits⟩⟩] := by
      rcases x.broker.step_cases with ⟨-, hserving⟩ | ⟨-, -, hserving⟩ |
        ⟨e, rest, mailbox, woken, -, -, -, -, -, hserving⟩
      · simp [hserving] at hnew
      · simp [hserving] at hnew
      · rw [hserving] at hnew ⊢
        rw [List.mem_singleton.mp hnew]
    simp only [Traffic.step, hserving, Served.stage_concat]
    exact History.final_discard _ hissued.stage waits

/-- The registry's work keeps everything in order. -/
theorem worked (h : x.Orderly ended) : (x.step .work).Orderly ended := by
  have hforsaken {id : ServiceId} (hid : x.Forsaken id) : (x.step .work).Forsaken id := by
    obtain ⟨t, handle, hissued, hid, hforsakes⟩ := hid
    exact ⟨t, handle, hissued.append _, hid, hforsakes⟩
  refine ⟨h.lawful.step .work, ?sane, ?stands, h.fresh, ?founded, ?orphans, h.discarded_work,
    ?waits⟩
  case sane =>
    have hsane := sane_step h.sane
    exact ⟨hsane.mailbox, hsane.lost⟩
  case stands =>
    intro t task hfound
    exact (h.stands t task hfound).worked h.lawful.books
  case founded =>
    intro e hmem
    have hfounded := h.founded e (x.posted_work_subset e hmem)
    obtain ⟨command, caller⟩ := e
    cases command with
    | confirm id name =>
        obtain ⟨t, hcaller, hissued⟩ := hfounded
        exact ⟨t, hcaller, hissued.append _⟩
    | discard id => exact hforsaken hfounded
    | _ => trivial
  case orphans =>
    intro id hmem
    exact hforsaken (h.orphans id hmem)
  case waits =>
    intro s hmem
    rcases List.mem_append.mp hmem with hold | hnew
    · exact h.waits s hold
    · exact (Broker.mem_of_serving hnew).2

theorem closed (h : x.Orderly ended) : (x.step .close).Orderly ended := by
  have hleaves (t : Ticket) : Leaves t x (x.step .close) := .close x
  have hposts : Broker.Posts (fun _ => False) x.broker (x.step .close).broker :=
    (Broker.Posts.close x.broker).trans (.flush _)
  have hposted : ∀ e ∈ (x.step .close).posted, e ∈ x.posted := by
    intro e hmem
    rcases List.mem_append.mp hmem with hmem | hmem
    · exact List.mem_append_left _ hmem
    · rcases hposts.of_mem hmem with hold | hnew
      · exact List.mem_append_right _ hold
      · exact hnew.elim
  refine ⟨h.lawful.step .close, ?sane, ?stands, h.fresh, ?founded, h.orphans, h.discarded, h.waits⟩
  case sane => exact h.sane.posts hposts (hleaves ⟨0, 0⟩).broker.isClosed
  case stands =>
    intro t task hfound
    refine (h.stands t task hfound).left (hleaves t) ?_
    intro e hmem
    rcases List.mem_append.mp hmem with hmem | hmem
    · exact List.mem_append_left _ hmem
    · exact List.mem_append_right _ (hposts.mem hmem)
  case founded =>
    intro e hmem
    exact h.founded e (hposted e hmem)

/-- Whatever move is made, everything stays in order. -/
theorem step (h : x.Orderly ended) (m : Move L) : (x.step m).Orderly (x.hears ended m) := by
  have hsame (hm : ∀ t outcome, m ≠ .task t (.setUpEnded outcome)) : x.hears ended m = ended :=
    funext fun t => hears_of_move (hm t)
  cases m with
  | task u turn =>
      cases hfound : x.tasks u with
      | some task => exact h.of_turned (h.turned hfound turn)
      | none =>
          have hkept : x.hears ended (.task u turn) = ended := by
            funext t
            by_cases heq : u = t
            · subst heq
              exact hears_of_task (by simp [hfound])
            · exact hears_of_move (by simp [heq])
          cases turn with
          | begin s =>
              rcases turned_start (h.lawful.unused hfound) (h.fresh u hfound) s with
                hturned | hnothing
              · apply h.of_turned
                rw [turn_none hfound, hkept]
                exact hturned
              · simp only [Traffic.step, turn_none hfound, hnothing, hkept]
                exact h
          | _ =>
              simp only [Traffic.step, Traffic.turn, hfound, hkept]
              exact h
  | work =>
      rw [hsame (by simp)]
      exact h.worked
  | close =>
      rw [hsame (by simp)]
      exact h.closed

end Orderly

/-- The setup of the service has ended so, while its registration waited for that. -/
def SetUp (config : Config) (worker : Ticket) (moves : List (Move L)) (t : Ticket)
    (handle : Handle) (failure : Option String) : Prop :=
  ∃ before outcome later name owner, moves = before ++ .task t (.setUpEnded outcome) :: later ∧
    (run config worker before).tasks t =
      some ⟨.registering name (.settingUp owner handle), false⟩ ∧
    Registration.failure? outcome = failure

theorem setUp_concat (config : Config) (worker : Ticket) (moves : List (Move L)) (m : Move L) :
    SetUp config worker (moves ++ [m]) =
      (run config worker moves).hears (SetUp config worker moves) m := by
  funext t handle failure
  apply propext
  constructor
  · rintro ⟨before, outcome, later, name, owner, hmoves, htask, hfailure⟩
    rcases List.eq_nil_or_concat later with rfl | ⟨later, last, rfl⟩
    · obtain ⟨rfl, hlast⟩ := List.append_inj' hmoves rfl
      exact Or.inr ⟨outcome, name, owner, by simpa using hlast, htask, hfailure⟩
    · have hsplit : moves ++ [m] =
          (before ++ .task t (.setUpEnded outcome) :: later) ++ [last] := by simp [hmoves]
      obtain ⟨rfl, -⟩ := List.append_inj' hsplit rfl
      exact Or.inl ⟨before, outcome, later, name, owner, rfl, htask, hfailure⟩
  · rintro (⟨before, outcome, later, name, owner, rfl, htask, hfailure⟩ |
      ⟨outcome, name, owner, rfl, htask, hfailure⟩)
    · exact ⟨before, outcome, later ++ [m], name, owner, by simp, htask, hfailure⟩
    · exact ⟨moves, outcome, [], name, owner, rfl, htask, hfailure⟩

/-- Every run is orderly. -/
theorem orderly_run (config : Config) (worker : Ticket) (moves : List (Move L)) :
    (run config worker moves).Orderly (SetUp config worker moves) := by
  induction moves using List.reverseRecOn with
  | nil =>
      refine ⟨lawful_run config worker [], ⟨?_, ?_⟩, ?_, ?_, ?_, ?_, ?_, ?_⟩
      · intro hshut
        cases hshut
      · intro t hlost
        cases hlost
      · intro t task hfound
        cases hfound
      · rintro t - h f ⟨before, outcome, later, name, owner, hmoves, -⟩
        simp at hmoves
      · intro e hmem
        cases hmem
      · intro id hmem
        cases hmem
      · intro s hmem
        cases hmem
      · intro s hmem
        cases hmem
  | append_singleton moves m ih =>
      rw [run_concat, setUp_concat]
      exact ih.step m

end EventHub.Traffic
