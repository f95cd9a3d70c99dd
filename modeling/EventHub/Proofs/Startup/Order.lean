import EventHub.Proofs.Startup.Announcing
import EventHub.Proofs.Startup.Preset
import EventHub.Proofs.Startup.Registering
import EventHub.Proofs.Traffic.Services

/-!
The order of a startup. The services are registered one after another, and then the startup is
announced once, unless one of them was told that the broker is closed, or has broken off when its
setup was called.
-/

namespace EventHub

open EventHub.Script EventHub.Simulation

namespace Simulation

/-- The world with more records. -/
def World.noting (w : World) (records : List Record) : World :=
  { w with records := w.records ++ records }

/-- The world that has made an event. -/
def World.numbering (w : World) : World := { w with nextSeq := w.nextSeq + 1 }

/-- Services are registered one after another, from one world to another. Each registration begins
in the world that the one before has left, with the record of a service that is skipped. -/
inductive InTurn (k : Nat) :
    World → List Service → List (Ticket × Except BrokerError Handle) → World → Prop
  | stops (w : World) (services : List Service) : InTurn k w services [] w
  | next {w u w' : World} {service : Service} {services : List Service} {t : Ticket}
      {result : Except BrokerError Handle} {attempts : List (Ticket × Except BrokerError Handle)}
      {turns : List (World × World)} (hspans : Spans turns w u)
      (hinit : Initializes k service turns result)
      (hrest : InTurn k (u.noting (Startup.decidedRecords (result.map (·.text)))) services attempts
        w') :
      InTurn k w (service :: services) ((t, result) :: attempts) w'

/-- The handles of the services that were admitted. -/
def admittedOf (attempts : List (Ticket × Except BrokerError Handle)) : List Handle :=
  attempts.filterMap (·.2.toOption)

/-- A startup has registered all its services, the last of them up to the world `u`, and announces
itself with one dispatch. The traffic was `y` before that and is `x'` at the end. -/
structure Announced (s : Startup Service) (attempts : List (Ticket × Except BrokerError Handle))
    (u last : World) (y x' : Traffic Action) (t : Ticket) (names : List String) : Prop where
  all : attempts.length = s.remaining.length
  decided : ∀ a ∈ attempts, a.2 ≠ .error .closed
  admitted : names = s.admitted ++ (admittedOf attempts).map (·.text)
  new : y.tasks t = none
  dispatch : ∃ turns u' report, Spans turns u.numbering u' ∧
    Runs (.begin (.fire 0 ⟨u.nextSeq, .startup⟩)) turns (.returned (.ok report)) ∧
    Reaches y x' t ⟨u.nextSeq, .startup⟩ (.ok report) ∧
    last = u'.noting [({ remaining := [], admitted := names } : Startup Service)
      |>.announcedRecord report.matched]

/-- A startup has found its broker closed. A service was refused, and no other is registered after
it; or all of them are, and the dispatch is told that nobody will say who listens. -/
inductive Thwarted (s : Startup Service) (attempts : List (Ticket × Except BrokerError Handle))
    (u last : World) (y x' : Traffic Action) : Prop
  | refused {t : Ticket} {before : List (Ticket × Except BrokerError Handle)}
      (hattempts : attempts = before ++ [(t, .error .closed)])
      (hdecided : ∀ a ∈ before, a.2 ≠ .error .closed) (hclosed : x'.broker.isClosed = true)
      (hlast : last = u)
  | unheard {t : Ticket} {turns : List (World × World)}
      (hall : attempts.length = s.remaining.length)
      (hdecided : ∀ a ∈ attempts, a.2 ≠ .error .closed) (hnew : y.tasks t = none)
      (hspans : Spans turns u.numbering last)
      (hruns : Runs (.begin (.fire 0 ⟨u.nextSeq, .startup⟩)) turns (.returned (.error .closed)))
      (hreaches : Reaches y x' t ⟨u.nextSeq, .startup⟩ (.error .closed))

/-- A startup has broken off after these attempts, the last of them up to the world `u`: the setup
of the next service broke off when it was called. None is registered after that, and nothing is
announced. -/
structure BrokenOff (s : Startup Service) (attempts : List (Ticket × Except BrokerError Handle))
    (u last : World) (payload : Payload) : Prop where
  decided : ∀ a ∈ attempts, a.2 ≠ .error .closed
  breaks : ∃ service services turns, s.remaining.drop attempts.length = service :: services ∧
    Spans turns u last ∧ BreaksOff 0 service turns payload

section Ends

variable {service : Service} {rest : List Service} {admitted names : List String} {t u : Ticket}
  {result : Except BrokerError Handle} {attempts : List (Ticket × Except BrokerError Handle)}
  {v last : World} {y x' : Traffic Action}

theorem Announced.next
    (h : Announced ⟨rest, admitted ++ result.toOption.toList.map (·.text)⟩ attempts v last y x' u
      names) (hresult : result ≠ .error .closed) :
    Announced ⟨service :: rest, admitted⟩ ((t, result) :: attempts) v last y x' u names where
  all := by simpa using h.all
  decided := List.forall_mem_cons.mpr ⟨hresult, h.decided⟩
  admitted := by
    rw [h.admitted]
    cases result <;> simp [admittedOf, Except.toOption]
  new := h.new
  dispatch := h.dispatch

theorem Thwarted.next {admitted' : List String}
    (h : Thwarted ⟨rest, admitted'⟩ attempts v last y x') (hresult : result ≠ .error .closed) :
    Thwarted ⟨service :: rest, admitted⟩ ((t, result) :: attempts) v last y x' := by
  cases h with
  | refused hattempts hdecided hclosed hlast =>
      exact .refused (by rw [hattempts]; rfl) (List.forall_mem_cons.mpr ⟨hresult, hdecided⟩) hclosed
        hlast
  | unheard hall hdecided hnew hspans hruns hreaches =>
      exact .unheard (by simpa using hall) (List.forall_mem_cons.mpr ⟨hresult, hdecided⟩) hnew
        hspans hruns hreaches

theorem BrokenOff.next {admitted' : List String} {payload : Payload}
    (h : BrokenOff ⟨rest, admitted'⟩ attempts v last payload) (hresult : result ≠ .error .closed) :
    BrokenOff ⟨service :: rest, admitted⟩ ((t, result) :: attempts) v last payload where
  decided := List.forall_mem_cons.mpr ⟨hresult, h.decided⟩
  breaks := h.breaks

theorem BrokenOff.abrupt {s : Startup Service} {payload : Payload}
    (h : BrokenOff s attempts v last payload) : ∃ name, .abrupt name payload ∈ s.remaining := by
  obtain ⟨service, services, turns, hdrop, -, hbreaks⟩ := h.breaks
  obtain ⟨name, rfl⟩ := hbreaks.abrupt
  refine ⟨name, List.mem_of_mem_drop (i := attempts.length) ?_⟩
  rw [hdrop]
  exact List.mem_cons_self

theorem Thwarted.closed {s : Startup Service} (h : Thwarted s attempts v last y x') :
    x'.broker.isClosed = true := by
  cases h with
  | refused _ _ hclosed => exact hclosed
  | unheard _ _ _ _ _ hreaches =>
      cases hreaches with
      | unheard hclosed => exact hclosed

end Ends

/-- What a startup that had got so far has done from one world to the last. It has made these
attempts, up to the world `u`, and has announced itself, unless the broker was closed. The traffic
was `x` before that, `y` after the attempts, and is `x'` at the end. -/
structure StartsUp (s : Startup Service) (v last : World) (x x' : Traffic Action)
    (attempts : List (Ticket × Except BrokerError Handle)) (u : World) (y : Traffic Action)
    (o : Outcome (Except RuntimeError (List String))) : Prop where
  inTurn : InTurn 0 v s.remaining attempts u
  attempted : Traffic.Attempts x attempts y
  later : Traffic.Later y x'
  ends : (∃ t names, Announced s attempts u last y x' t names ∧ o = .returned (.ok names)) ∨
    (Thwarted s attempts u last y x' ∧ o = .returned (.error (.broker .closed))) ∨
    ∃ payload, BrokenOff s attempts u last payload ∧ o = .panicked payload

/-- A startup has come to its end, and its task holds what it held besides. -/
def StartedUp (F : Held) (x : Traffic Action) (v : World) (s : Startup Service) (last : World)
    (o : Outcome (Except RuntimeError (List String))) : Held := fun x' ts =>
  F x' ts ∧ ∃ attempts u y, StartsUp s v last x x' attempts u y o

/-- What is calm leaves alone what a task holds. -/
theorem Holding.calm {k i : Nat} {F : Held} {x : Traffic Action} {w w' : World}
    (h : Holding k i F x w) (hF : F.Local) (hcalm : Calm k w w') : Arrives k i x w w' F := by
  obtain ⟨hx, ts, hts, hown⟩ := h
  obtain ⟨x', hx', honward, htasks, -⟩ := hx.calm hcalm
  exact ⟨x', ⟨hx', ts, hF hts fun t _ => congrFun htasks t, hown.mono hcalm.serial⟩, honward,
    hcalm.serial⟩

theorem Reaches.later {x x' x'' : Traffic Action} {t : Ticket} {event : Event} {report : Report}
    (h : Reaches x x' t event (.ok report)) (hlater : Traffic.Later x' x'') :
    Reaches x x'' t event (.ok report) := by
  cases h with
  | heard before after calls hsince htaken hcalls hall =>
      obtain ⟨more, hmore⟩ := hlater.served
      exact .heard before (after ++ more) calls hsince (by simp [← hmore, htaken]) hcalls hall

namespace Performs

variable {i : Nat} {F : Held} {s : Startup Service} {x : Traffic Action} {v w' last : World}
  {rest : List (World × World)} {o : Outcome (Except RuntimeError (List String))}

/-- With no services left, a startup announces itself. -/
theorem announces (hF : F.Local) (hs : s.remaining = [])
    (h : Performs (Beside 0 i F) 3 v.numbering
      (.bind (.begin (.fire 0 ⟨v.nextSeq, .startup⟩)) (.announced s)) ((v.numbering, w') :: rest) o)
    (hfound : ∃ b, v.brokers[0]? = some b) (hx : Holding 0 i F x v)
    (hlast : ((v, w') :: rest).getLast?.map Prod.snd = some last) :
    Arrives 0 i x v last (StartedUp F x v s last o) := by
  obtain ⟨b, hb⟩ := hfound
  obtain ⟨y, hy, honward₁, hserial₁⟩ : Arrives 0 i x v v.numbering F :=
    hx.calm hF (Sim.calms_event .startup v)
  obtain ⟨own, ended, u, u', later, hown, hspans, -, hruns, hends⟩ := h.of_bind fun _ _ => .refl _ _
  have hfire : Performs (Beside 0 i F) 2 v.numbering (.begin (.fire 0 ⟨v.nextSeq, .startup⟩)) own
      ended := hown.imp fun f v w hsince => hsince.inner fun x => rfl
  obtain ⟨t, result, hnew, rfl, x', ⟨hx', ts, ⟨hheld, hreaches⟩, howns⟩, honward₂, hserial₂⟩ :=
    hfire.fires hF ⟨b, hb⟩ hy hspans.last
  have hnone : InTurn 0 v s.remaining [] v := .stops v s.remaining
  have hattempts : Traffic.Attempts x [] y := .none (honward₁.later hx.1 hb)
  obtain ⟨⟨b', hb'⟩, -⟩ := (honward₁.trans honward₂) b hb
  have hlater : Traffic.Later y x' :=
    honward₂.later hy.1 (show v.numbering.brokers[0]? = some b from hb)
  have hlast' : ((u, u') :: later).getLast?.map Prod.snd = some last :=
    (last_of_suffix (v := v) hends).trans hlast
  have hnothing : ([] : List (Ticket × Except BrokerError Handle)).length = s.remaining.length := by
    simp [hs]
  cases hresult : result with
  | error e =>
      subst hresult
      obtain rfl : e = .closed := by
        cases hreaches
        rfl
      obtain ⟨rfl, rfl, rfl⟩ := hruns.of_ended
      cases hlast'
      refine ⟨x', ⟨hx', ts,
          ⟨hheld, [], v, y, hnone, hattempts, hlater, Or.inr (Or.inl ⟨?_, rfl⟩)⟩, howns⟩,
        honward₁.trans honward₂, Nat.le_trans hserial₁ hserial₂⟩
      exact .unheard hnothing (by simp) hnew hspans hown.runs hreaches
  | ok report =>
      subst hresult
      obtain ⟨rfl, rfl, rfl⟩ := hruns.of_ended
      cases hlast'
      let note : List Record := [({ remaining := [], admitted := s.admitted } : Startup Service)
        |>.announcedRecord report.matched]
      obtain ⟨x'', ⟨hx'', ts', hheld', howns'⟩, honward₃, hserial₃⟩ :=
        (Holding.calm ⟨hx', ts, hheld, howns⟩ hF (Sim.calms_writeAll note u))
      have hnoted : Traffic.Later x' x'' := honward₃.later hx' hb'
      have hannounced : Announced s [] v (u.noting note) y x'' t s.admitted :=
        ⟨hnothing, by simp, by simp [admittedOf], hnew,
          own, u, report, hspans, hown.runs, hreaches.later hnoted, rfl⟩
      exact ⟨x'', ⟨hx'', ts', ⟨hheld', [], v, y, hnone, hattempts, hlater.trans hnoted,
          Or.inl ⟨t, s.admitted, hannounced, rfl⟩⟩, howns'⟩,
        (honward₁.trans honward₂).trans honward₃,
        Nat.le_trans (Nat.le_trans hserial₁ hserial₂) hserial₃⟩

/-- One service is registered, and the startup goes on with what came of that, or breaks off with
it. -/
theorem decides (hF : F.Local) {service : Service} {least : Nat}
    (h : Performs (Beside 0 i F) (least + 5) v
      (.bind (.begin (.register 0 service)) (.decided s)) ((v, w') :: rest) o)
    (hfound : ∃ b, v.brokers[0]? = some b) (hx : Holding 0 i F x v)
    (hlast : ((v, w') :: rest).getLast?.map Prod.snd = some last) :
    (∃ turns payload, Spans turns v last ∧ BreaksOff 0 service turns payload ∧
      o = .panicked payload ∧ Arrives 0 i x v last F) ∨
    ∃ turns t result u w y w₁ later, Spans turns v u ∧ Initializes 0 service turns result ∧
      w = u.noting (Startup.decidedRecords (result.map (·.text))) ∧ x.tasks t = none ∧
      y.tasks t = some ⟨.registered (serviceName service) result, false⟩ ∧ Traffic.Later x y ∧
      Holding 0 i F y w ∧ Onward 0 x v y w ∧ v.serial ≤ w.serial ∧
      Performs (Beside 0 i F) (least + 4)
        ((Sim.startNext (s.decided (result.map (·.text)))).run w).2
        ((Sim.startNext (s.decided (result.map (·.text)))).run w).1
        ((((Sim.startNext (s.decided (result.map (·.text)))).run w).2, w₁) :: later) o ∧
      (w₁ :: later.map Prod.snd) <:+ w' :: rest.map Prod.snd := by
  obtain ⟨own, ended, u, w₁, later, hown, hspans, -, hruns, hends⟩ := h.of_bind fun _ _ => .refl _ _
  have hregister : Performs (Beside 0 i F) 4 v (.begin (.register 0 service)) own ended :=
    (hown.imp fun f v w hsince => hsince.inner fun x => rfl).mono (by omega)
  rcases hregister.registers hF hfound hx hspans.last with
    ⟨t, result, hnew, rfl, hinit, y₁, ⟨hy₁, ts, ⟨hheld, htask⟩, howns⟩, honward₁, hserial₁⟩ |
    ⟨payload, rfl, hbreaks, hheld⟩
  case inr =>
    have hbroken : (Sim.resume (.decided s) (.panicked payload)).run u = (.panic payload, u) := rfl
    rw [hbroken] at hruns
    obtain ⟨rfl, rfl, rfl⟩ := hruns.of_ended
    obtain rfl : w₁ = last := Option.some.inj ((last_of_suffix (u := w₁) hends).trans hlast)
    exact Or.inl ⟨own, payload, hspans, hbreaks, rfl, hheld⟩
  obtain ⟨b, hb⟩ := hfound
  obtain ⟨b₁, hb₁⟩ := hy₁.found_of_task htask
  obtain ⟨y, hy, honward₂, hserial₂⟩ : Arrives 0 i y₁ u
      (u.noting (Startup.decidedRecords (result.map (·.text)))) F :=
    Holding.calm ⟨hy₁, ts, hheld, howns⟩ hF (Sim.calms_writeAll _ u)
  have hlater : Traffic.Later y₁ y := honward₂.later hy₁ hb₁
  exact Or.inr ⟨own, t, result, u, _, y, w₁, later, hspans, hinit, rfl, hnew,
    hlater.registered htask, (honward₁.later hx.1 hb).trans hlater, hy, honward₁.trans honward₂,
    Nat.le_trans hserial₁ hserial₂, hruns, hends⟩

/-- Of the services that are left the first is registered, then those after it; and then the
startup announces itself. -/
theorem starts (hF : F.Local)
    (h : Performs (Beside 0 i F) (s.remaining.length + 5) ((Sim.startNext s.advance).run v).2
      ((Sim.startNext s.advance).run v).1 ((((Sim.startNext s.advance).run v).2, w') :: rest) o)
    (hfound : ∃ b, v.brokers[0]? = some b) (hx : Holding 0 i F x v)
    (hlast : ((v, w') :: rest).getLast?.map Prod.snd = some last) :
    Arrives 0 i x v last (StartedUp F x v s last o) := by
  obtain ⟨services, admitted⟩ := s
  induction services generalizing admitted x v w' rest with
  | nil => exact Performs.announces hF rfl (h.mono (by simp)) hfound hx hlast
  | cons service services ih =>
      have h : Performs (Beside 0 i F) (services.length + 1 + 5) v
          (.bind (.begin (.register 0 service)) (.decided ⟨services, admitted⟩))
          ((v, w') :: rest) o := h
      rcases h.decides hF hfound hx hlast with ⟨turns, payload, hspans, hbreaks, rfl, hheld⟩ |
        ⟨turns, t, result, u, w, y, w₁, later, hspans, hinit, rfl, hnew, htask, hattempt, hy,
          honward, hserial, hruns, hends⟩
      case inl =>
        obtain ⟨b, hb⟩ := hfound
        have hsame : Traffic.Later x x := (Onward.refl x v).later hx.1 hb
        have hbroken : BrokenOff ⟨service :: services, admitted⟩ [] v last payload :=
          ⟨by simp, service, services, turns, rfl, hspans, hbreaks⟩
        obtain ⟨x', ⟨hx', ts, hts, howns⟩, honward, hserial⟩ := hheld
        exact ⟨x', ⟨hx', ts, ⟨hts, [], v, x, .stops v _, .none hsame, honward.later hx.1 hb,
          Or.inr (Or.inr ⟨payload, hbroken, rfl⟩)⟩, howns⟩, honward, hserial⟩
      obtain ⟨b, hb⟩ := hy.1.found_of_task htask
      have hlast' (w : World) : ((w, w₁) :: later).getLast?.map Prod.snd = some last :=
        (last_of_suffix hends).trans hlast
      -- those after it are registered, unless it was told that the broker is closed
      have hgoes (hresult : result ≠ .error .closed)
          (hnext : Startup.decided ⟨services, admitted⟩ (result.map (·.text)) =
            Startup.advance ⟨services, admitted ++ result.toOption.toList.map (·.text)⟩) :
          Arrives 0 i x v last (StartedUp F x v ⟨service :: services, admitted⟩ last o) := by
        rw [hnext] at hruns
        have hrest := ih ⟨b, hb⟩ hy (hlast' _) _ hruns
        refine (hrest.mono ?_).after honward hserial
        rintro x' ts ⟨hheld, attempts, u₂, z, hinTurn, hattempts, hlater, hends'⟩
        refine ⟨hheld, (t, result) :: attempts, u₂, z, .next hspans hinit hinTurn,
          .next hattempt hnew htask hattempts, hlater, ?_⟩
        rcases hends' with
          ⟨t', names, hannounced, rfl⟩ | ⟨hthwarted, rfl⟩ | ⟨payload, hbroken, rfl⟩
        · exact Or.inl ⟨t', names, hannounced.next hresult, rfl⟩
        · exact Or.inr (Or.inl ⟨hthwarted.next hresult, rfl⟩)
        · exact Or.inr (Or.inr ⟨payload, hbroken.next hresult, rfl⟩)
      rcases hinit.result_cases with ⟨handle, rfl⟩ | ⟨name, reason, rfl⟩ | rfl
      · exact hgoes (by simp) rfl
      · exact hgoes (by simp) (by simp [Startup.decided, Except.map, Except.toOption])
      · obtain ⟨rfl, hlast₁, rfl⟩ := hruns.of_ended
        obtain rfl : w₁ = last := Option.some.inj (hlast' u)
        obtain ⟨hy, ts, hheld, howns⟩ := hy
        obtain ⟨-, _, horderly⟩ := hattempt.orderly
        have hclosed : y.broker.isClosed = true := horderly.closed_of_registered htask
        have hinTurn : InTurn 0 v (service :: services) [(t, .error .closed)] w₁ :=
          .next hspans hinit (hlast₁ ▸ .stops _ services)
        have hthwarted : Thwarted ⟨service :: services, admitted⟩ [(t, .error .closed)] w₁ w₁ y y :=
          .refused (List.nil_append _).symm (by simp) hclosed rfl
        have hended : StartedUp F x v ⟨service :: services, admitted⟩ w₁
            (.returned (.error (.broker .closed))) y ts :=
          ⟨hheld, _, w₁, y, hinTurn, .next hattempt hnew htask (.none hattempt.last), hattempt.last,
            Or.inr (Or.inl ⟨hthwarted, rfl⟩)⟩
        subst hlast₁
        exact (Arrives.refl ⟨hy, ts, hended, howns⟩).after honward hserial

/-- What the application starts by itself is started first, then what it is asked for. -/
theorem startup {services : List Service} {first : World} {turns : List (World × World)}
    (hF : F.Local)
    (h : Performs (Beside 0 i F) ((first.preset ++ services).length + 6) v
      (.begin (.start services)) turns o)
    (hfound : ∃ b, v.brokers[0]? = some b) (hx : Holding 0 i F x v)
    (hspans : Spans turns first last) :
    ∃ x₁ b, Traffic.Later x x₁ ∧ Holding 0 i F x₁ first ∧ first.brokers[0]? = some b ∧
      Arrives 0 i x₁ first last (StartedUp F x₁ first ⟨first.preset ++ services, []⟩ last o) := by
  obtain ⟨w, w', rest, rfl, hbegun, x₁, b₁, hx₁, hb₁, -, hlater, -⟩ :=
    h.begins hF (fun _ => ⟨by simp [Begin.discardsAt?], rfl⟩) hfound hx
  obtain rfl : w = first := Option.some.inj hspans.first
  have hbegin : (Sim.begin (.start services)).run w = (Sim.startNext
      (Startup.advance { remaining := w.preset ++ services : Startup Service })).run w := by
    rw [Sim.begin]
    rfl
  rw [hbegin] at hbegun
  exact ⟨x₁, b₁, hlater, hx₁, hb₁, hbegun.starts hF ⟨b₁, hb₁⟩ hx₁
    ((last_of_suffix List.suffix_rfl).trans hspans.last)⟩

end Performs

namespace StartsUp

variable {s : Startup Service} {v last u : World} {x x' y z : Traffic Action}
  {attempts : List (Ticket × Except BrokerError Handle)}
  {o : Outcome (Except RuntimeError (List String))}

/-- If nobody else registers services meanwhile, those that are admitted come after those that were
there, in their order. -/
theorem services (h : StartsUp s v last x x' attempts u y o) {more : List (Served Action)}
    (hmore : x'.served = x.served ++ more)
    (halone : ∀ r ∈ more, r.request.command.isConfirm = true →
      ∃ a ∈ attempts, r.caller = some a.1) :
    x'.broker.registry.services = x.broker.registry.services ++ admittedOf attempts := by
  have hattempts := h.attempted.onward h.later
  obtain ⟨⟨_, horderly⟩, _, horderly'⟩ := hattempts.later.orderly
  rw [horderly.lawful.books, horderly'.lawful.books]
  exact hattempts.services hmore halone

end StartsUp

end Simulation

namespace Scenario

/-- An application that starts a service that cannot set itself up. -/
def startsBroken : Scenario :=
  { preset := [.service (.scripted "broken" [] (.setup "no disk") none)] }

def indexOnly : List Service := [.scripted "index" [] .done none]

/-- The script asks for a startup, in a task of its own. -/
def startAsked : World := ((handIn (.lifecycle (.start indexOnly))).run startsBroken.start).2

/-- The task that runs the script. -/
def scriptTask (w : World) : Simulation.Task := (w.tasks[2]?).getD { running := .finished }

/-- The world where the startup begins, in the first turn of that task. -/
def startBegun : World :=
  ((Sim.begin (.step {} (.lifecycle (.start indexOnly)))).run
    (startAsked.entered 2 (scriptTask startAsked))).2

/-- What the task runs. -/
def showsStarted (f : Future .started) : Running :=
  .main (.bind f (.map (Result.ofRuntime .texts)))

/-- The world that a turn of the task has led to, when the registry has had a turn as well. -/
def registryTurn (p : Future .started × World) : World :=
  ((Sim.runTask 1).run (((Sim.setTask 2 fun t => { t with running := showsStarted p.1 }) >>= fun _ =>
    Sim.endTurn 2).run p.2).2).2

/-- The world in which the task goes on. -/
def taskResumes (p : Future .started × World) : World :=
  (registryTurn p).entered 2 (scriptTask (registryTurn p))

/-- The startup after its first turn and so many more. -/
def startTurn : Nat → Future .started × World
  | 0 => (Sim.poll 20 (.begin (.start indexOnly))).run startBegun
  | n + 1 => (Sim.poll 20 (startTurn n).1).run (taskResumes (startTurn n))

end Scenario

namespace Simulation

/-- Whether a startup goes on. -/
def Future.startGoes : Future .started → Bool
  | .done _ => false
  | _ => true

theorem ne_done_of_startGoes {f : Future .started} (h : f.startGoes = true)
    (o : Outcome (Except RuntimeError (List String))) : f ≠ .done o := by
  rintro rfl
  cases h

/-- After these turns the startup has others, and comes to its outcome in them. -/
def StartGoesOn (n : Nat) (last : World) (o : Outcome (Except RuntimeError (List String))) : Prop :=
  ∃ turns, Performs (fun f => Resumes 2 (Scenario.showsStarted f)) 8 (Scenario.startTurn n).2
    (Scenario.startTurn n).1 turns o ∧ turns.getLast?.map Prod.snd = some last

section Turns

variable {n : Nat} (htask : (Scenario.registryTurn (Scenario.startTurn n)).tasks[2]?.isSome = true)

include htask

theorem resumes_startTurn :
    Resumes 2 (Scenario.showsStarted (Scenario.startTurn n).1) (Scenario.startTurn n).2
      (Scenario.taskResumes (Scenario.startTurn n)) := by
  obtain ⟨t, ht⟩ := Option.isSome_iff_exists.mp htask
  refine Or.inr ⟨Scenario.registryTurn (Scenario.startTurn n), t, .turn 1 (by decide) .refl, ht, ?_⟩
  rw [Scenario.taskResumes, Scenario.scriptTask, ht]
  rfl

theorem StartGoesOn.before {last : World} {o : Outcome (Except RuntimeError (List String))}
    (h : StartGoesOn (n + 1) last o) (hgoes : (Scenario.startTurn (n + 1)).1.startGoes = true) :
    StartGoesOn n last o := by
  obtain ⟨turns, hperforms, hlast⟩ := h
  refine ⟨(Scenario.taskResumes (Scenario.startTurn n), (Scenario.startTurn (n + 1)).2) :: turns,
    .turn 20 (resumes_startTurn htask) (by decide) rfl (ne_done_of_startGoes hgoes) hperforms, ?_⟩
  cases turns with
  | nil => cases hlast
  | cons turn rest => exact hlast

end Turns

theorem startTurn_zero : Scenario.startTurn 0 =
    (Sim.poll 20 (.begin (.start Scenario.indexOnly))).run Scenario.startBegun := by
  rw [Scenario.startTurn]

/-- The first turn begins in the midst of what the task does then. -/
theorem StartGoesOn.begun {last : World} {o : Outcome (Except RuntimeError (List String))}
    (h : StartGoesOn 0 last o) (hgoes : (Scenario.startTurn 0).1.startGoes = true) :
    ∃ turns, Performs (fun f => Resumes 2 (Scenario.showsStarted f)) 8 Scenario.startBegun
      (.begin (.start Scenario.indexOnly)) turns o ∧ Spans turns Scenario.startBegun last := by
  obtain ⟨turns, hperforms, hlast⟩ := h
  refine ⟨(Scenario.startBegun, (Scenario.startTurn 0).2) :: turns,
    .turn 20 (Or.inl rfl) (by decide) (startTurn_zero.symm.trans (Prod.eta _).symm)
      (ne_done_of_startGoes hgoes) hperforms, rfl, ?_⟩
  cases turns with
  | nil => cases hlast
  | cons turn rest => exact hlast

end Simulation

end EventHub
