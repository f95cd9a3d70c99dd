import EventHub.Proofs.Broker.Issue
import EventHub.Proofs.Broker.Posting
import EventHub.Proofs.Traffic.Closed

/-!
Where a registration stands with its slot. A slot belongs to the registration that it was
issued to; only that registration confirms it, and a discard of it is only ever posted
when that registration is over.
-/

namespace EventHub

variable {L : Type}

/-- No command of a registration. -/
def Command.IsPlain : Command L → Prop
  | .reserve _ => False
  | .confirm _ _ => False
  | .discard _ => False
  | _ => True

/-- The slot that a registration knows of. -/
def Registration.handle? : Registration L → Option Handle
  | .reserving _ _ => none
  | .settingUp _ handle => some handle
  | .discarding _ handle _ => some handle
  | .confirming handle _ => some handle

/-- What an activity that does not concern a slot has still to post. -/
def Activity.message? : Activity L → Option (Envelope L)
  | .firing _ call => call.message?
  | .subscribing _ _ call => call.message?
  | .listing call => call.message?
  | _ => none

/-- An activity that does not concern a slot. -/
def Activity.IsPlain : Activity L → Prop
  | .registering _ _ => False
  | .registered _ _ => False
  | .discarding _ => False
  | .discarded _ => False
  | _ => True

namespace Traffic

/-- What was put into the mailbox and not dropped. -/
def posted (x : Traffic L) : List (Envelope L) :=
  x.served.map (fun s => ⟨s.request.command, s.caller⟩) ++ x.broker.mailbox.queue

/-- The task's registration knew its slot, or was told that there is none, and is over
without having been admitted. -/
def Forsakes (x : Traffic L) (t : Ticket) : Prop :=
  (∃ name e, x.tasks t = some ⟨.registered name (.error e), false⟩) ∨
    ∃ name stage, x.tasks t = some ⟨.registering name stage, true⟩ ∧ stage.handle? ≠ none

/-- Nobody will confirm the slot any more. -/
def Forsaken (x : Traffic L) (id : ServiceId) : Prop :=
  ∃ t handle, Issued x.served t handle ∧ handle.id = id ∧ x.Forsakes t

/-- A confirmation comes from the slot's owner, and a discard means that the owner has
left. -/
def Founded (x : Traffic L) (e : Envelope L) : Prop :=
  match e.command with
  | .confirm id name => ∃ t, e.caller = some t ∧ Issued x.served t ⟨id, name⟩
  | .discard id => x.Forsaken id
  | _ => True

/-- The discard of the slot was posted, or somebody has to post it. -/
def Disputed (x : Traffic L) (id : ServiceId) : Prop :=
  (∃ e ∈ x.posted, e.command = .discard id) ∨ id ∈ x.orphans

/-- The slot is the task's own, and it will have no other. -/
structure Owns (x : Traffic L) (t : Ticket) (handle : Handle) : Prop where
  issued : Issued x.served t handle
  sole : ∀ other, Issued x.served t other → other = handle
  queue : ∀ e ∈ x.broker.enqueued t, e.command.isReserve = false

/-- The slot is the task's own, and the task has asked for nothing since. -/
structure Reserved (x : Traffic L) (t : Ticket) (handle : Handle) : Prop
    extends x.Owns t handle where
  idle : x.broker.Idle t
  past : Served.requestsOf x.served t = [⟨.reserve handle.name, true⟩]

/-- Whatever was posted for the task is one of these commands. -/
structure Asks (x : Traffic L) (t : Ticket) (commands : Command L → Prop) : Prop where
  queue : ∀ e ∈ x.broker.enqueued t, commands e.command
  served : ∀ q ∈ Served.requestsOf x.served t, commands q.command

/-- A setup has ended, for this slot and in this way, and no other has. -/
def Only (ended : Handle → Option String → Prop) (handle : Handle) (failure : Option String) :
    Prop :=
  ∀ h f, ended h f ↔ h = handle ∧ f = failure

/-- Where a task stands with its slot, if it has one; `ended` tells how its setup has
ended. -/
inductive Stands (x : Traffic L) (t : Ticket) (ended : Handle → Option String → Prop) :
    Task L → Prop where
  | other (a : Activity L) (isGivenUp : Bool) (hplain : a.IsPlain)
      (hasks : x.Asks t Command.IsPlain) (hmessage : ∀ e ∈ a.message?, e.command.IsPlain) :
      Stands x t ended ⟨a, isGivenUp⟩
  | posting (id : ServiceId) (hasks : x.Asks t Command.IsPlain) (horphan : id ∈ x.orphans) :
      Stands x t ended ⟨.discarding id, false⟩
  | posted (id : ServiceId) (hasks : x.Asks t Command.IsPlain)
      (hposted : x.broker.isClosed = false → ∃ e ∈ x.posted, e.command = .discard id) :
      Stands x t ended ⟨.discarded id, false⟩
  | reserving (name : String) (call : Call L)
      (haccount : x.broker.Account x.served t (.reserve name) [] call)
      (hended : ∀ h f, ¬ ended h f) :
      Stands x t ended ⟨.registering name (.reserving name call), false⟩
  | settingUp (handle : Handle) (hreserved : x.Reserved t handle) (hended : ∀ h f, ¬ ended h f) :
      Stands x t ended ⟨.registering handle.name (.settingUp t handle), false⟩
  | discarding (handle : Handle) (reason : String) (hreserved : x.Reserved t handle)
      (hended : Only ended handle (some reason)) :
      Stands x t ended ⟨.registering handle.name (.discarding t handle reason), false⟩
  | confirming (handle : Handle) (call : Call L) (howns : x.Owns t handle)
      (haccount : x.broker.Account x.served t (.confirm handle.id handle.name)
        [⟨.reserve handle.name, true⟩] call)
      (hended : Only ended handle none) :
      Stands x t ended ⟨.registering handle.name (.confirming handle call), false⟩
  | admitted (handle : Handle) (howns : x.Owns t handle) (hidle : x.broker.Idle t)
      (hanswered : Answered x.served t (.confirm handle.id handle.name)
        [⟨.reserve handle.name, true⟩] (.settled (.ok ())))
      (hended : Only ended handle none) :
      Stands x t ended ⟨.registered handle.name (.ok handle), false⟩
  | failed (handle : Handle) (reason : String) (hreserved : x.Reserved t handle)
      (hended : Only ended handle (some reason))
      (hdisputed : x.broker.isClosed = false → x.Disputed handle.id) :
      Stands x t ended
        ⟨.registered handle.name (.error (.initializationFailed handle.name reason)), false⟩
  | refused (name : String) (hidle : x.broker.Idle t) (hpast : Served.requestsOf x.served t = [])
      (hended : ∀ h f, ¬ ended h f) (hclosed : x.broker.isClosed = true) :
      Stands x t ended ⟨.registered name (.error .closed), false⟩
  | unconfirmed (handle : Handle) (hreserved : x.Reserved t handle)
      (hended : Only ended handle none) (hclosed : x.broker.isClosed = true) :
      Stands x t ended ⟨.registered handle.name (.error .closed), false⟩
  | leftEarly (name : String) (call : Call L) (hasks : x.Asks t (· = .reserve name))
      (hticket : call.ticket = t)
      (hmessage : ∀ e ∈ call.message?, Served.requestsOf x.served t = [] ∧
        x.broker.enqueued t = []) :
      Stands x t ended ⟨.registering name (.reserving name call), true⟩
  | leftLate (name : String) (handle : Handle) (stage : Registration L) (howns : x.Owns t handle)
      (hstage : stage.handle? = some handle)
      (hdisputed : x.broker.isClosed = false → x.Disputed handle.id) :
      Stands x t ended ⟨.registering name stage, true⟩

section Others

variable {x x' : Traffic L} {t : Ticket} {handle : Handle}

theorem Owns.left (h : x.Owns t handle) (hleaves : Leaves t x x') : x'.Owns t handle where
  issued := by rw [hleaves.served]; exact h.issued
  sole := by rw [hleaves.served]; exact h.sole
  queue := by rw [hleaves.broker.enqueued]; exact h.queue

theorem Reserved.left (h : x.Reserved t handle) (hleaves : Leaves t x x') :
    x'.Reserved t handle where
  toOwns := h.toOwns.left hleaves
  idle := h.idle.spared hleaves.broker
  past := by rw [hleaves.served]; exact h.past

theorem Asks.left {commands : Command L → Prop} (h : x.Asks t commands)
    (hleaves : Leaves t x x') : x'.Asks t commands where
  queue := by rw [hleaves.broker.enqueued]; exact h.queue
  served := by rw [hleaves.served]; exact h.served

theorem Disputed.left {id : ServiceId} (h : x.Disputed id) (horphans : x.orphans ⊆ x'.orphans)
    (hposted : ∀ e ∈ x.posted, e ∈ x'.posted) : x'.Disputed id := by
  rcases h with ⟨e, hmem, he⟩ | horphan
  · exact Or.inl ⟨e, hposted e hmem, he⟩
  · exact Or.inr (horphans horphan)

/-- What another task does leaves a registration where it stands. -/
theorem Stands.left {ended : Handle → Option String → Prop} {task : Task L}
    (h : x.Stands t ended task) (hleaves : Leaves t x x')
    (hposted : ∀ e ∈ x.posted, e ∈ x'.posted) : x'.Stands t ended task := by
  have hopen : x'.broker.isClosed = false → x.broker.isClosed = false := by
    intro hopen
    by_contra hclosed
    rw [hleaves.broker.isClosed (by simpa using hclosed)] at hopen
    cases hopen
  have hdisputed {id : ServiceId} (h : x.broker.isClosed = false → x.Disputed id) :
      x'.broker.isClosed = false → x'.Disputed id :=
    fun h' => (h (hopen h')).left hleaves.orphans hposted
  cases h with
  | other a isGivenUp hplain hasks hmessage =>
      exact .other a isGivenUp hplain (hasks.left hleaves) hmessage
  | posting id hasks horphan => exact .posting id (hasks.left hleaves) (hleaves.orphans horphan)
  | posted id hasks hold =>
      refine .posted id (hasks.left hleaves) ?_
      intro h'
      obtain ⟨e, hmem, he⟩ := hold (hopen h')
      exact ⟨e, hposted e hmem, he⟩
  | reserving name call haccount hended =>
      refine .reserving name call ?_ hended
      rw [hleaves.served]
      exact haccount.spared hleaves.broker
  | settingUp handle hreserved hended => exact .settingUp handle (hreserved.left hleaves) hended
  | discarding handle reason hreserved hended =>
      exact .discarding handle reason (hreserved.left hleaves) hended
  | confirming handle call howns haccount hended =>
      refine .confirming handle call (howns.left hleaves) ?_ hended
      rw [hleaves.served]
      exact haccount.spared hleaves.broker
  | admitted handle howns hidle hanswered hended =>
      refine .admitted handle (howns.left hleaves) (hidle.spared hleaves.broker) ?_ hended
      rw [hleaves.served]
      exact hanswered
  | failed handle reason hreserved hended hold =>
      exact .failed handle reason (hreserved.left hleaves) hended (hdisputed hold)
  | refused name hidle hpast hended hclosed =>
      refine .refused name (hidle.spared hleaves.broker) ?_ hended (hleaves.broker.isClosed hclosed)
      rw [hleaves.served]
      exact hpast
  | unconfirmed handle hreserved hended hclosed =>
      exact .unconfirmed handle (hreserved.left hleaves) hended (hleaves.broker.isClosed hclosed)
  | leftEarly name call hasks hticket hmessage =>
      refine .leftEarly name call (hasks.left hleaves) hticket ?_
      rw [hleaves.served, hleaves.broker.enqueued]
      exact hmessage
  | leftLate name handle stage howns hstage hold =>
      exact .leftLate name handle stage (howns.left hleaves) hstage (hdisputed hold)

end Others

section Work

variable {x : Traffic L} {t : Ticket} {handle : Handle}

theorem posted_work_subset (x : Traffic L) : ∀ e ∈ (x.step .work).posted, e ∈ x.posted := by
  intro e hmem
  simp only [posted, step, List.map_append, List.append_assoc, List.mem_append] at hmem ⊢
  rcases hmem with hmem | hmem | hmem
  · exact Or.inl hmem
  · obtain ⟨s, hs, rfl⟩ := List.mem_map.mp hmem
    exact Or.inr (Broker.mem_of_serving hs).1
  · exact Or.inr (x.broker.queue_step_subset e hmem)

/-- What an open broker's registry takes stays posted. -/
theorem posted_work (hopen : x.broker.isClosed = false) : (x.step .work).posted = x.posted := by
  rcases Broker.step_of_open hopen with ⟨hstep, hserving⟩ |
    ⟨e, rest, mailbox, woken, hqueue, hmailbox, -, hstep, hserving⟩
  · simp [posted, step, hstep, hserving, Broker.flushed]
  · obtain ⟨-, hmailbox', -⟩ := Broker.serve_spec ({ x.broker with mailbox }.wake woken) e ⟨0, 0⟩
    have hrest : (({ x.broker with mailbox }.wake woken).serve e).mailbox.queue = rest := by
      rw [hmailbox', ← hmailbox]
      rfl
    simp [posted, step, hstep, hserving, Broker.flushed, hrest, hqueue]

theorem isClosed_work (h : (x.step .work).broker.isClosed = false) : x.broker.isClosed = false := by
  by_contra hclosed
  have hstays := (Broker.step_of_closed (b := x.broker) (by simpa using hclosed)).1
  have hopen : x.broker.step.isClosed = false := h
  rw [hstays] at hopen
  cases hopen

theorem Disputed.worked {id : ServiceId} (h : x.broker.isClosed = false → x.Disputed id) :
    (x.step .work).broker.isClosed = false → (x.step .work).Disputed id := by
  intro hopen
  have hopen' := isClosed_work hopen
  refine (h hopen').left (List.Subset.refl _) ?_
  rw [posted_work hopen']
  exact fun _ hmem => hmem

theorem Asks.worked {commands : Command L → Prop} (h : x.Asks t commands) :
    (x.step .work).Asks t commands := by
  have hserved {more : List (Request L)} (hmore : ∀ q ∈ more, commands q.command) :
      ∀ q ∈ Served.requestsOf x.served t ++ more, commands q.command := by
    intro q hmem
    rcases List.mem_append.mp hmem with hmem | hmem
    · exact h.served q hmem
    · exact hmore q hmem
  cases x.broker.stepFor t with
  | other _ hqueue hserving =>
      refine ⟨fun e hmem => h.queue e (hqueue ▸ hmem), ?_⟩
      simp only [step, Served.requestsOf_append, Served.requestsOf_eq_nil hserving]
      exact hserved (by simp)
  | taken c rest hqueue hrest hserving _ =>
      have hcommands := h.queue
      rw [hqueue] at hcommands
      obtain ⟨hc, hcommands⟩ := List.forall_mem_cons.mp hcommands
      refine ⟨fun e hmem => hcommands e (hrest ▸ hmem), ?_⟩
      simp only [step, Served.requestsOf_append, hserving]
      exact hserved (by simpa [Served.requestsOf] using hc)
  | dropped _ hrest hserving _ =>
      have hrest' : (x.step .work).broker.enqueued t = [] := hrest
      refine ⟨by simp [hrest'], ?_⟩
      simp only [step, hserving, List.append_nil]
      exact h.served

theorem Owns.worked (h : x.Owns t handle) : (x.step .work).Owns t handle := by
  have hsole (hserving : ∀ s ∈ x.broker.serving, s.caller = some t →
      s.request.command.isReserve = false) (other : Handle)
      (hother : Issued (x.step .work).served t other) : other = handle :=
    h.sole other (hother.of_append hserving)
  have hissued : Issued (x.step .work).served t handle := h.issued.append _
  cases x.broker.stepFor t with
  | other _ hqueue hserving =>
      exact ⟨hissued, hsole fun s hmem hcaller => absurd hcaller (hserving s hmem),
        fun e hmem => h.queue e (hqueue ▸ hmem)⟩
  | taken c rest hqueue hrest hserving _ =>
      have hcommands := h.queue
      rw [hqueue] at hcommands
      obtain ⟨hc, hcommands⟩ := List.forall_mem_cons.mp hcommands
      exact ⟨hissued, hsole (by simpa [hserving] using hc),
        fun e hmem => hcommands e (hrest ▸ hmem)⟩
  | dropped _ hrest hserving _ =>
      have hrest' : (x.step .work).broker.enqueued t = [] := hrest
      exact ⟨hissued, hsole (by simp [hserving]), by simp [hrest']⟩

/-- The registry takes nothing for a task that has nothing under way. -/
theorem requestsOf_work (hidle : x.broker.Idle t) :
    Served.requestsOf (x.step .work).served t = Served.requestsOf x.served t := by
  obtain ⟨-, -, hserving⟩ := Broker.serving_of_queue_nil hidle.queue
  exact Served.requestsOf_append_other hserving

theorem Reserved.worked (h : x.Reserved t handle) : (x.step .work).Reserved t handle where
  toOwns := h.toOwns.worked
  idle := h.idle.step.flush
  past := (requestsOf_work h.idle).trans h.past

/-- While the registry works, a registration stays where it stands. -/
theorem Stands.worked {ended : Handle → Option String → Prop} {task : Task L}
    (h : x.Stands t ended task) (hbooks : x.broker.registry = Served.books x.served) :
    (x.step .work).Stands t ended task := by
  have hclosed (h : x.broker.isClosed = true) : (x.step .work).broker.isClosed = true :=
    (Broker.step_of_closed h).1
  cases h with
  | other a isGivenUp hplain hasks hmessage => exact .other a isGivenUp hplain hasks.worked hmessage
  | posting id hasks horphan => exact .posting id hasks.worked horphan
  | posted id hasks hold =>
      refine .posted id hasks.worked ?_
      intro hopen
      have hopen' := isClosed_work hopen
      rw [posted_work hopen']
      exact hold hopen'
  | reserving name call haccount hended =>
      exact .reserving name call (haccount.step trivial hbooks).flush hended
  | settingUp handle hreserved hended => exact .settingUp handle hreserved.worked hended
  | discarding handle reason hreserved hended =>
      exact .discarding handle reason hreserved.worked hended
  | confirming handle call howns haccount hended =>
      exact .confirming handle call howns.worked (haccount.step trivial hbooks).flush hended
  | admitted handle howns hidle hanswered hended =>
      obtain ⟨-, -, hserving⟩ := Broker.serving_of_queue_nil hidle.queue
      exact .admitted handle howns.worked hidle.step.flush (hanswered.append hserving) hended
  | failed handle reason hreserved hended hold =>
      exact .failed handle reason hreserved.worked hended (Disputed.worked hold)
  | refused name hidle hpast hended hold =>
      exact .refused name hidle.step.flush ((requestsOf_work hidle).trans hpast) hended
        (hclosed hold)
  | unconfirmed handle hreserved hended hold =>
      exact .unconfirmed handle hreserved.worked hended (hclosed hold)
  | leftEarly name call hasks hticket hmessage =>
      refine .leftEarly name call hasks.worked hticket ?_
      intro e hmem
      obtain ⟨hpast, hqueue⟩ := hmessage e hmem
      obtain ⟨-, hrest, hserving⟩ := Broker.serving_of_queue_nil hqueue
      exact ⟨(Served.requestsOf_append_other hserving).trans hpast, hrest⟩
  | leftLate name handle stage howns hstage hold =>
      exact .leftLate name handle stage howns.worked hstage (Disputed.worked hold)

end Work

end Traffic

end EventHub
