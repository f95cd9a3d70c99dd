import EventHub.Proofs.Registry.CommitOrder
import EventHub.Proofs.Traffic.Later

/-!
The services of a broker, while registrations come out one after another. Only a confirmation adds
to them, and a registration that has come out has confirmed its slot if it was admitted and not
otherwise. So if nobody else confirms anything, the services grow by those that were admitted, in
their order.
-/

namespace EventHub

variable {L : Type}

/-- Whether a command may admit a service. -/
def Command.isConfirm : Command L → Bool
  | .confirm _ _ => true
  | _ => false

namespace History

theorem admits_eq_nil (h : History L) {q : Request L} (hq : q.command.isConfirm = false) :
    h.admits q = [] := by
  obtain ⟨command, waits⟩ := q
  cases command with
  | confirm id name => cases hq
  | _ => rfl

theorem admitted_foldl (h : History L) {qs : List (Request L)}
    (hqs : ∀ q ∈ qs, q.command.isConfirm = false) : (qs.foldl extend h).admitted = h.admitted := by
  induction qs generalizing h with
  | nil => rfl
  | cons q qs ih =>
      obtain ⟨hq, hrest⟩ := List.forall_mem_cons.mp hqs
      rw [List.foldl_cons, ih (h.extend q) hrest, admitted_extend, admits_eq_nil h hq,
        List.append_nil]

end History

namespace Served

variable {served more : List (Served L)}

theorem services_books (served : List (Served L)) :
    (books served).services = (History.of (served.map request)).admitted :=
  (Agrees.of_run (served.map request)).services_eq

/-- Without a confirmation no service is added. -/
theorem services_append (h : ∀ s ∈ more, s.request.command.isConfirm = false) :
    (books (served ++ more)).services = (books served).services := by
  rw [services_books, services_books, List.map_append, History.of_append]
  apply History.admitted_foldl
  intro q hq
  obtain ⟨s, hmem, rfl⟩ := List.mem_map.mp hq
  exact h s hmem

theorem services_confirm {caller : Option Ticket} {id : ServiceId} {name : String} {waits : Bool}
    {owner : Handle} (hpending : stage served id = .pending owner) :
    (books (served ++ [⟨caller, ⟨.confirm id name, waits⟩⟩])).services =
      (books served).services ++ [owner] := by
  have hstage : (History.of (served.map request)).stage id = .pending owner := hpending
  rw [services_books, services_books, List.map_append, List.map_singleton, History.of_concat,
    History.admitted_extend]
  simp only [History.admits, hstage]

end Served

namespace Traffic

variable {x x' : Traffic L} {t : Ticket} {name : String} {result : Except BrokerError Handle}
  {ended : Ticket → Handle → Option String → Prop}

/-- What a registration that has come out has confirmed. -/
theorem Orderly.confirms (h : x.Orderly ended) {isGivenUp : Bool}
    (htask : x.tasks t = some ⟨.registered name result, isGivenUp⟩) :
    (Served.requestsOf x.served t).filter (·.command.isConfirm) =
      result.toOption.toList.map fun handle => ⟨.confirm handle.id handle.name, true⟩ := by
  cases h.stands t _ htask with
  | other _ _ hplain => exact hplain.elim
  | admitted handle howns hidle hanswered =>
      rw [hanswered.requestsOf]
      rfl
  | failed handle reason hreserved =>
      rw [hreserved.past]
      rfl
  | refused _ hidle hpast =>
      rw [hpast]
      rfl
  | unconfirmed handle hreserved =>
      rw [hreserved.past]
      rfl

namespace Later

/-- A registration that has come out confirms nothing later. -/
theorem confirms_no_more (h : Later x x')
    (htask : x.tasks t = some ⟨.registered name result, false⟩) {more : List (Served L)}
    (hmore : x'.served = x.served ++ more) {s : Served L} (hmem : s ∈ more)
    (hcaller : s.caller = some t) : s.request.command.isConfirm = false := by
  obtain ⟨⟨_, horderly⟩, _, horderly'⟩ := h.orderly
  have hbefore := horderly.confirms htask
  have hafter := horderly'.confirms (h.registered htask)
  rw [hmore, Served.requestsOf_append, List.filter_append, hbefore] at hafter
  have hnone := List.append_right_eq_self.mp hafter
  rw [List.filter_eq_nil_iff] at hnone
  simpa using hnone _ (Served.mem_requestsOf hmem hcaller)

/-- A ticket that is not used yet has asked for nothing. -/
theorem unasked (h : Later x x') (hnone : x.tasks t = none) :
    Served.requestsOf x.served t = [] := by
  obtain ⟨⟨_, horderly⟩, -⟩ := h.orderly
  exact (horderly.lawful.unused hnone).served

/-- A registration adds its service if it is admitted, and nothing otherwise. -/
theorem services (h : Later x x') (hnone : x.tasks t = none)
    (htask : x'.tasks t = some ⟨.registered name result, false⟩) {more : List (Served L)}
    (hmore : x'.served = x.served ++ more)
    (halone : ∀ s ∈ more, s.request.command.isConfirm = true → s.caller = some t) :
    (Served.books x'.served).services =
      (Served.books x.served).services ++ result.toOption.toList := by
  obtain ⟨-, _, horderly⟩ := h.orderly
  have hconfirms := horderly.confirms htask
  -- what was asked for by this ticket tells which of the commands are confirmations
  have hothers {part : List (Served L)} (hpart : part ⊆ more)
      (hasked : (Served.requestsOf part t).filter (·.command.isConfirm) = []) :
      ∀ s ∈ part, s.request.command.isConfirm = false := by
    intro s hs
    by_contra hconfirm
    have hconfirm : s.request.command.isConfirm = true := by simpa using hconfirm
    have hmem := Served.mem_requestsOf hs (halone s (hpart hs) hconfirm)
    exact List.filter_eq_nil_iff.mp hasked _ hmem hconfirm
  have hnothing (hasked : (Served.requestsOf x'.served t).filter (·.command.isConfirm) = []) :
      (Served.books x'.served).services = (Served.books x.served).services := by
    rw [hmore, Served.requestsOf_append, List.filter_append] at hasked
    rw [hmore, Served.services_append (hothers (List.Subset.refl more)
      (List.append_eq_nil_iff.mp hasked).2)]
  cases result with
  | error e => rw [hnothing hconfirms, Except.toOption, Option.toList_none, List.append_nil]
  | ok handle =>
      generalize hstands : x'.tasks t = task at htask
      have hadmitted := horderly.stands t _ (hstands.trans htask)
      cases hadmitted with
      | other _ _ hplain => exact hplain.elim
      | admitted _ howns _ hanswered =>
          obtain ⟨before, after, owner, hserved, hpast, hsince, hpending, howner⟩ :=
            hanswered.confirmed
          obtain rfl := howns.issued.admitted howner
          obtain ⟨first, rfl⟩ : x.served <+: before :=
            Served.prefix_before ⟨more, hmore.symm.trans hserved⟩ rfl (h.unasked hnone)
          obtain rfl : more = first ++ ⟨some t, ⟨.confirm owner.id owner.name, true⟩⟩ :: after := by
            rw [hmore, List.append_assoc] at hserved
            exact List.append_cancel_left hserved
          rw [Served.requestsOf_append, h.unasked hnone, List.nil_append] at hpast
          have hfirst : ∀ s ∈ first, s.request.command.isConfirm = false :=
            hothers (by simp) (by rw [hpast]; rfl)
          have hafter : ∀ s ∈ after, s.request.command.isConfirm = false :=
            hothers (by simp) (by rw [hsince]; rfl)
          rw [hserved, List.append_cons, Served.services_append hafter,
            Served.services_confirm hpending, Served.services_append hfirst]
          rfl

end Later

/-- Registrations that came out one after another, and the traffic since then. -/
inductive Attempts : Traffic L → List (Ticket × Except BrokerError Handle) → Traffic L → Prop
  | none {x x' : Traffic L} (hlater : Later x x') : Attempts x [] x'
  | next {x y x' : Traffic L} {t : Ticket} {name : String} {result : Except BrokerError Handle}
      {rest : List (Ticket × Except BrokerError Handle)} (hlater : Later x y)
      (hnone : x.tasks t = none)
      (htask : y.tasks t = some ⟨.registered name result, false⟩) (hrest : Attempts y rest x') :
      Attempts x ((t, result) :: rest) x'

namespace Attempts

variable {attempts : List (Ticket × Except BrokerError Handle)}

theorem later (h : Attempts x attempts x') : Later x x' := by
  induction h with
  | none hlater => exact hlater
  | next hlater _ _ _ ih => exact hlater.trans ih

theorem onward {x'' : Traffic L} (h : Attempts x attempts x') (hlater : Later x' x'') :
    Attempts x attempts x'' := by
  induction h with
  | none hbefore => exact .none (hbefore.trans hlater)
  | next hbefore hnone htask _ ih => exact .next hbefore hnone htask (ih hlater)

/-- None of the registrations has asked for anything before. -/
theorem unasked (h : Attempts x attempts x') {a : Ticket × Except BrokerError Handle}
    (hmem : a ∈ attempts) : Served.requestsOf x.served a.1 = [] := by
  induction h with
  | none => cases hmem
  | @next x y x' t name result rest hlater hnone _ hrest ih =>
      rcases List.mem_cons.mp hmem with rfl | hmem
      · exact hlater.unasked hnone
      · obtain ⟨more, hmore⟩ := hlater.served
        have hasked := ih hmem
        rw [← hmore, Served.requestsOf_append] at hasked
        exact (List.append_eq_nil_iff.mp hasked).1

/-- If nobody else has confirmed anything, the services that were admitted were added, in the order
in which their registrations came out. -/
theorem services (h : Attempts x attempts x') {more : List (Served L)}
    (hmore : x'.served = x.served ++ more)
    (halone : ∀ s ∈ more, s.request.command.isConfirm = true →
      ∃ a ∈ attempts, s.caller = some a.1) :
    (Served.books x'.served).services =
      (Served.books x.served).services ++ attempts.filterMap (·.2.toOption) := by
  induction h generalizing more with
  | none hlater =>
      rw [hmore, Served.services_append, List.filterMap_nil, List.append_nil]
      intro s hmem
      by_contra hconfirm
      obtain ⟨a, ha, -⟩ := halone s hmem (by simpa using hconfirm)
      cases ha
  | @next x y x' t name result rest hlater hnone htask hrest ih =>
      obtain ⟨own, hown⟩ := hlater.served
      obtain ⟨later, hlater'⟩ := hrest.later.served
      obtain rfl : more = own ++ later := by
        rw [← hlater', ← hown, List.append_assoc] at hmore
        exact (List.append_cancel_left hmore).symm
      have hfirst : ∀ s ∈ own, s.request.command.isConfirm = true → s.caller = some t := by
        intro s hmem hconfirm
        obtain ⟨a, ha, hcaller⟩ := halone s (List.mem_append_left _ hmem) hconfirm
        rcases List.mem_cons.mp ha with rfl | ha
        · exact hcaller
        · -- a later registration has not begun
          have hasked := hrest.unasked ha
          have hmem' : s ∈ y.served := hown ▸ List.mem_append_right _ hmem
          have hrequest := Served.mem_requestsOf hmem' hcaller
          rw [hasked] at hrequest
          cases hrequest
      have hothers : ∀ s ∈ later, s.request.command.isConfirm = true →
          ∃ a ∈ rest, s.caller = some a.1 := by
        intro s hmem hconfirm
        obtain ⟨a, ha, hcaller⟩ := halone s (List.mem_append_right _ hmem) hconfirm
        rcases List.mem_cons.mp ha with rfl | ha
        · have hno := hrest.later.confirms_no_more htask hlater'.symm hmem hcaller
          cases hno.symm.trans hconfirm
        · exact ⟨a, ha, hcaller⟩
      rw [ih hlater'.symm hothers, hlater.services hnone htask hown.symm hfirst,
        List.append_assoc]
      cases result <;> rfl

end Attempts

end Traffic

end EventHub
