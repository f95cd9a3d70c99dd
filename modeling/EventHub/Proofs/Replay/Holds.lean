import EventHub.Proofs.Traffic.Isolation
import EventHub.Simulation.World

/-!
What the computations of a world hold at one broker. Every call that is under way
there is held by one computation: by its wait, or by the frame that goes on once a
listener or a setup has ended. The traffic says of the same ticket what it does.
-/

namespace EventHub.Simulation

open EventHub.Script

variable (k : Nat) (x : Traffic Action)

/-- What broker `j` is asked for, if it is broker `k`, is held by one ticket. -/
def Carries (j : Nat) (shows : Activity Action → Prop) (ts : List Ticket) : Prop :=
  if j = k then ∃ t a, ts = [t] ∧ x.tasks t = some ⟨a, false⟩ ∧ shows a else ts = []

/-- What a wait holds. Room for a discard that nobody waits for is another matter. -/
def Wait.Holds {a : Shape} : Wait a → List Ticket → Prop
  | .registration j _ _ stage, ts => Carries k x j (fun a => ∃ name, a = .registering name stage) ts
  | .asking j event call, ts => Carries k x j (fun a => a = .firing event call) ts
  | .subscribing j call, ts =>
    Carries k x j (fun a => ∃ service listener, a = .subscribing service listener call) ts
  | .listing j call, ts => Carries k x j (fun a => a = .listing call) ts
  | .posting j _ _, ts => j ≠ k ∧ ts = []
  | _, ts => ts = []

/-- Whose discard a computation begins with, if it does. -/
def Begin.discardsAt? {a : Shape} : Begin a → Option Nat
  | .discard j _ => some j
  | _ => none

def Frame.Holds {a b : Shape} : Frame a b → List Ticket → Prop
  | .settingUp j t handle _, ts =>
    Carries k x j (fun a => ∃ name, a = .registering name (.settingUp t handle)) ts
  | .delivered j d s _, ts => Carries k x j (fun a => a = .delivering d s) ts
  | .andThen next, ts => next.discardsAt? ≠ some k ∧ ts = []
  | _, ts => ts = []

/-- The tickets that a computation holds, from the inside out. -/
def Future.Holds : {a : Shape} → Future a → List Ticket → Prop
  | _, .done _, ts => ts = []
  | _, .begin b, ts => b.discardsAt? ≠ some k ∧ ts = []
  | _, .wait w, ts => w.Holds k x ts
  | _, .bind inner frame, ts => ∃ ti tf, ts = ti ++ tf ∧ inner.Holds ti ∧ frame.Holds k x tf
  | _, .within _ inner, ts => inner.Holds ts
  | _, .followed first others, ts => ∃ ti tf, ts = ti ++ tf ∧ first.Holds ti ∧ others.Holds tf
  | _, .raceClose .., ts => ts = []
  | _, .abandon _ _ _ inner, ts => inner.Holds ts

/-- A discard that nobody waits for. -/
inductive Posts : Future .unit → List Ticket → Prop where
  | begin (id : ServiceId) (horphan : id ∈ x.orphans) : Posts (.begin (.discard k id)) []
  | wait (t : Ticket) (id : ServiceId) (htask : x.tasks t = some ⟨.discarding id, false⟩) :
      Posts (.wait (.posting k t id)) [t]

def Running.Holds : Running → List Ticket → Prop
  | .unit f, ts => f.Holds k x ts ∨ Posts k x f ts
  | .job _ f, ts => f.Holds k x ts
  | .blocking _ f, ts => f.Holds k x ts
  | .script _ f, ts => f.Holds k x ts
  | .main f, ts => f.Holds k x ts
  | .settling f, ts => f.Holds k x ts
  | .finished, ts => ts = []

variable {k : Nat} {x x' : Traffic Action} {ts : List Ticket}

theorem Carries.congr {j : Nat} {shows : Activity Action → Prop} (h : Carries k x j shows ts)
    (htasks : ∀ t ∈ ts, x'.tasks t = x.tasks t) : Carries k x' j shows ts := by
  rw [Carries] at h ⊢
  split
  · rename_i heq
    rw [if_pos heq] at h
    obtain ⟨t, a, rfl, htask, hshows⟩ := h
    exact ⟨t, a, rfl, (htasks t (List.mem_singleton_self t)).trans htask, hshows⟩
  · rename_i hne
    rw [if_neg hne] at h
    exact h

theorem Wait.Holds.congr {a : Shape} {w : Wait a} (h : w.Holds k x ts)
    (htasks : ∀ t ∈ ts, x'.tasks t = x.tasks t) : w.Holds k x' ts := by
  cases w with
  | registration => exact Carries.congr h htasks
  | asking => exact Carries.congr h htasks
  | subscribing => exact Carries.congr h htasks
  | listing => exact Carries.congr h htasks
  | _ => exact h

theorem Frame.Holds.congr {a b : Shape} {frame : Frame a b} (h : frame.Holds k x ts)
    (htasks : ∀ t ∈ ts, x'.tasks t = x.tasks t) : frame.Holds k x' ts := by
  cases frame with
  | settingUp => exact Carries.congr h htasks
  | delivered => exact Carries.congr h htasks
  | _ => exact h

theorem Future.Holds.congr {a : Shape} {f : Future a} (h : f.Holds k x ts)
    (htasks : ∀ t ∈ ts, x'.tasks t = x.tasks t) : f.Holds k x' ts := by
  induction f generalizing ts with
  | done o => exact h
  | begin b => exact h
  | wait w => exact Wait.Holds.congr h htasks
  | bind inner frame ih =>
      obtain ⟨ti, tf, rfl, hinner, hframe⟩ := h
      refine ⟨ti, tf, rfl, ?_, ?_⟩
      · exact ih hinner fun t ht => htasks t (List.mem_append_left _ ht)
      · exact hframe.congr fun t ht => htasks t (List.mem_append_right _ ht)
  | within alarm inner ih => exact ih h htasks
  | followed first others ihfirst ihothers =>
      obtain ⟨ti, tf, rfl, hfirst, hothers⟩ := h
      refine ⟨ti, tf, rfl, ?_, ?_⟩
      · exact ihfirst hfirst fun t ht => htasks t (List.mem_append_left _ ht)
      · exact ihothers hothers fun t ht => htasks t (List.mem_append_right _ ht)
  | raceClose broker context steps => exact h
  | abandon broker alarm fill inner ih => exact ih h htasks

theorem Posts.congr {f : Future .unit} (h : Posts k x f ts)
    (htasks : ∀ t ∈ ts, x'.tasks t = x.tasks t) (horphans : x.orphans ⊆ x'.orphans) :
    Posts k x' f ts := by
  cases h with
  | begin id horphan => exact .begin id (horphans horphan)
  | wait t id htask => exact .wait t id ((htasks t (List.mem_singleton_self t)).trans htask)

theorem Running.Holds.congr {r : Running} (h : r.Holds k x ts)
    (htasks : ∀ t ∈ ts, x'.tasks t = x.tasks t) (horphans : x.orphans ⊆ x'.orphans) :
    r.Holds k x' ts := by
  cases r with
  | unit f => exact h.imp (·.congr htasks) (·.congr htasks horphans)
  | job id f => exact Future.Holds.congr h htasks
  | blocking id f => exact Future.Holds.congr h htasks
  | script token f => exact Future.Holds.congr h htasks
  | main f => exact Future.Holds.congr h htasks
  | settling f => exact Future.Holds.congr h htasks
  | finished => exact h

/-- A computation that holds nothing, whatever the traffic. -/
def Future.Plain (k : Nat) {a : Shape} (f : Future a) : Prop := ∀ x, f.Holds k x []

def Running.Plain (k : Nat) (r : Running) : Prop := ∀ x, r.Holds k x []

end EventHub.Simulation
