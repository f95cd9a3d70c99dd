import EventHub.Proofs.Broker.Account
import EventHub.Proofs.Registry.Decision

/-!
Whose slot it is. A slot is issued to the call whose request the registry took
when the number was due and whose caller waited for it. There is one such request for
a number, so that a slot has one owner, for good.
-/

namespace EventHub

variable {L : Type}

def Command.isReserve : Command L → Bool
  | .reserve _ => true
  | _ => false

/-- The registry handed the slot to this call. -/
def Issued (served : List (Served L)) (t : Ticket) (handle : Handle) : Prop :=
  ∃ before after, served = before ++ ⟨some t, ⟨.reserve handle.name, true⟩⟩ :: after ∧
    handle.id = ⟨(Served.books before).lastId + 1⟩

namespace Served

/-- What became of a number after these commands. -/
def stage (served : List (Served L)) (id : ServiceId) : Stage :=
  (History.of (served.map request)).stage id

theorem stage_append (served more : List (Served L)) (id : ServiceId) :
    stage (served ++ more) id =
      ((more.map request).foldl History.extend (History.of (served.map request))).stage id := by
  rw [stage, List.map_append, History.of_append]

theorem stage_concat (served : List (Served L)) (s : Served L) (id : ServiceId) :
    stage (served ++ [s]) id = ((History.of (served.map request)).extend s.request).stage id :=
  stage_append served [s] id

theorem lastId_books (served : List (Served L)) :
    (books served).lastId = (History.of (served.map request)).issued :=
  (Agrees.of_run _).issued

theorem lastId_mono (served more : List (Served L)) :
    (books served).lastId ≤ (books (served ++ more)).lastId := by
  rw [lastId_books, lastId_books, List.map_append, History.of_append]
  exact History.issued_le_foldl _ _

theorem lastId_reserve (before more : List (Served L)) (caller : Option Ticket) (name : String)
    (waits : Bool) :
    (books before).lastId + 1 ≤
      (books (before ++ ⟨caller, ⟨.reserve name, waits⟩⟩ :: more)).lastId := by
  have hnext : (books (before ++ [⟨caller, ⟨.reserve name, waits⟩⟩])).lastId =
      (books before).lastId + 1 := by
    rw [lastId_books, lastId_books, List.map_append, List.map_singleton, History.of_concat]
    rfl
  have hle := lastId_mono (before ++ [⟨caller, ⟨.reserve name, waits⟩⟩]) more
  rwa [hnext, ← List.append_cons] at hle

/-- Of two commands in one record, one came first, or they are the same. -/
theorem split_cases {before before' after after' : List (Served L)} {s s' : Served L}
    (h : before ++ s :: after = before' ++ s' :: after') :
    (before = before' ∧ s = s') ∨ (∃ c, before' = before ++ s :: c ∧ after = c ++ s' :: after') ∨
      ∃ c, before = before' ++ s' :: c ∧ after' = c ++ s :: after := by
  rcases List.append_eq_append_iff.mp h with ⟨c, hbefore, hrest⟩ | ⟨c, hbefore, hrest⟩
  · cases c with
    | nil =>
        obtain ⟨rfl, -⟩ := List.cons.inj hrest
        exact Or.inl ⟨by simpa using hbefore.symm, rfl⟩
    | cons a c =>
        obtain ⟨rfl, rfl⟩ := List.cons.inj hrest
        exact Or.inr (Or.inl ⟨c, hbefore, rfl⟩)
  · cases c with
    | nil =>
        obtain ⟨rfl, -⟩ := List.cons.inj hrest
        exact Or.inl ⟨by simpa using hbefore, rfl⟩
    | cons a c =>
        obtain ⟨rfl, rfl⟩ := List.cons.inj hrest
        exact Or.inr (Or.inr ⟨c, hbefore, rfl⟩)

theorem mem_requestsOf {served : List (Served L)} {t : Ticket} {s : Served L} (hmem : s ∈ served)
    (hcaller : s.caller = some t) : s.request ∈ requestsOf served t :=
  List.mem_map.mpr ⟨s, List.mem_filter.mpr ⟨hmem, by simpa using hcaller⟩, rfl⟩

end Served

namespace Issued

variable {served : List (Served L)} {t u : Ticket} {handle other : Handle}

theorem append (h : Issued served t handle) (more : List (Served L)) :
    Issued (served ++ more) t handle := by
  obtain ⟨before, after, rfl, hid⟩ := h
  exact ⟨before, after ++ more, by simp, hid⟩

theorem mem (h : Issued served t handle) : ⟨some t, ⟨.reserve handle.name, true⟩⟩ ∈ served := by
  obtain ⟨before, after, rfl, -⟩ := h
  simp

/-- A number is issued once. -/
theorem unique (h : Issued served t handle) (h' : Issued served u other)
    (hid : handle.id = other.id) : t = u ∧ handle = other := by
  obtain ⟨before, after, hserved, hbefore⟩ := h
  obtain ⟨before', after', hserved', hbefore'⟩ := h'
  have hlast : (Served.books before).lastId = (Served.books before').lastId := by
    have hnumber := congrArg ServiceId.val (hbefore.symm.trans (hid.trans hbefore'))
    exact Nat.succ.inj hnumber
  rcases Served.split_cases (hserved.symm.trans hserved') with ⟨-, heq⟩ | ⟨c, hc, -⟩ | ⟨c, hc, -⟩
  · have hcaller : some t = some u := congrArg Served.caller heq
    have hname : handle.name = other.name := by
      simpa using congrArg (fun s : Served L => s.request.command) heq
    exact ⟨Option.some.inj hcaller, by cases handle; cases other; simp_all⟩
  · have hle := Served.lastId_reserve before c (some t) handle.name true
    rw [← hc] at hle
    omega
  · have hle := Served.lastId_reserve before' c (some u) other.name true
    rw [← hc] at hle
    omega

/-- What is not a request for a slot by the call does not issue one to it. -/
theorem of_append {more : List (Served L)} (h : Issued (served ++ more) t handle)
    (hmore : ∀ s ∈ more, s.caller = some t → s.request.command.isReserve = false) :
    Issued served t handle := by
  obtain ⟨before, after, hserved, hid⟩ := h
  rcases List.append_eq_append_iff.mp hserved with ⟨c, -, hrest⟩ | ⟨c, hbefore, hrest⟩
  · have hmem : ⟨some t, ⟨.reserve handle.name, true⟩⟩ ∈ more := by simp [hrest]
    cases hmore _ hmem rfl
  · cases c with
    | nil =>
        have hmem : ⟨some t, ⟨.reserve handle.name, true⟩⟩ ∈ more := by
          rw [← List.nil_append more, ← hrest]
          exact List.mem_cons_self
        cases hmore _ hmem rfl
    | cons a c =>
        obtain ⟨rfl, -⟩ := List.cons.inj hrest
        exact ⟨before, c, hbefore, hid⟩

/-- The stage of a slot that was issued names its handle. -/
theorem stage (h : Issued served t handle) :
    Served.stage served handle.id ≠ .unissued := by
  obtain ⟨before, after, rfl, hid⟩ := h
  have hs := History.sound_of (before.map Served.request)
  intro hfree
  rw [Served.stage, ((History.sound_of _).unissued_iff _), ← Served.lastId_books, hid] at hfree
  have hle := Served.lastId_reserve before after (some t) handle.name true
  simp only [Nat.add_eq_zero_iff, Nat.one_ne_zero, and_false, false_or] at hfree
  omega

/-- A slot is pending when it is issued. -/
theorem pending_first {before : List (Served L)}
    (hid : handle.id = ⟨(Served.books before).lastId + 1⟩) :
    Served.stage (before ++ [⟨some t, ⟨.reserve handle.name, true⟩⟩]) handle.id =
      .pending handle := by
  rw [Served.stage_concat]
  have hnext : handle.id = ⟨(History.of (before.map Served.request)).issued + 1⟩ := by
    rw [hid, Served.lastId_books]
  obtain ⟨id, name⟩ := handle
  obtain rfl : id = _ := hnext
  simp [History.extend, History.move_stage]

/-- As long as nobody has decided about a slot, it is pending. -/
theorem pending (h : Issued served t handle)
    (hundecided : ∀ s ∈ served, ¬ s.request.Decides handle.id) :
    Served.stage served handle.id = .pending handle := by
  obtain ⟨before, after, rfl, hid⟩ := h
  rw [List.append_cons, Served.stage_append]
  apply (History.sound_of _).pending_foldl (pending_first hid)
  intro q hq
  obtain ⟨s, hmem, rfl⟩ := List.mem_map.mp hq
  exact hundecided s (by simp [hmem])

/-- Nobody is admitted in a slot but its owner. -/
theorem admitted (h : Issued served t handle) {owner : Handle}
    (hadmitted : Served.stage served handle.id = .admitted owner) : owner = handle := by
  obtain ⟨before, after, rfl, hid⟩ := h
  rw [List.append_cons, Served.stage_append] at hadmitted
  exact (History.sound_of _).admitted_foldl (pending_first hid) hadmitted

end Issued

namespace Answered

variable {served : List (Served L)} {t : Ticket} {a : Answer L}

theorem requestsOf {c : Command L} {past : List (Request L)} (h : Answered served t c past a) :
    Served.requestsOf served t = past ++ [⟨c, true⟩] := by
  obtain ⟨before, after, rfl, hpast, hsince, -⟩ := h
  rw [List.append_cons, Served.requestsOf_append, Served.requestsOf_append, hpast, hsince]
  simp [Served.requestsOf]

/-- The first request of a call is answered with its one slot. -/
theorem issued {name : String} (h : Answered served t (.reserve name) [] a) :
    ∃ handle, a = .reserved handle ∧ handle.name = name ∧ Issued served t handle ∧
      ∀ other, Issued served t other → other = handle := by
  obtain ⟨before, after, hserved, hpast, hsince, ha⟩ := h
  refine ⟨⟨⟨(Served.books before).lastId + 1⟩, name⟩, ?_, rfl, ⟨before, after, hserved, rfl⟩, ?_⟩
  · simpa [Registry.serve, Registry.apply, Registry.reserve, eq_comm] using ha
  · rintro ⟨id, other⟩ ⟨before', after', hserved', hid⟩
    rcases Served.split_cases (hserved.symm.trans hserved') with
      ⟨rfl, heq⟩ | ⟨c, -, hafter⟩ | ⟨c, hbefore, -⟩
    · have hname : name = other := by
        simpa using congrArg (fun s : Served L => s.request.command) heq
      obtain rfl : id = _ := hid
      rw [hname]
    · have hmem : ⟨.reserve other, true⟩ ∈ Served.requestsOf after t :=
        Served.mem_requestsOf (s := ⟨some t, ⟨.reserve other, true⟩⟩) (by simp [hafter]) rfl
      rw [hsince] at hmem
      cases hmem
    · have hmem : ⟨.reserve other, true⟩ ∈ Served.requestsOf before t :=
        Served.mem_requestsOf (s := ⟨some t, ⟨.reserve other, true⟩⟩) (by simp [hbefore]) rfl
      rw [hpast] at hmem
      cases hmem

/-- A confirmation by the owner succeeds if nobody else has decided about the slot. -/
theorem settled {handle : Handle}
    (h : Answered served t (.confirm handle.id handle.name) [⟨.reserve handle.name, true⟩] a)
    (hissued : Issued served t handle)
    (hdecided : ∀ s ∈ served, s.request.Decides handle.id → s.caller = some t) :
    a = .settled (.ok ()) := by
  obtain ⟨before, after, hserved, hpast, hsince, ha⟩ := h
  have hbefore : Issued before t handle := by
    obtain ⟨first, rest, hfirst, hid⟩ := hissued
    rcases Served.split_cases (hserved.symm.trans hfirst) with
      ⟨-, heq⟩ | ⟨c, -, hafter⟩ | ⟨c, hbefore, -⟩
    · cases congrArg (fun s : Served L => s.request.command) heq
    · have hmem : ⟨.reserve handle.name, true⟩ ∈ Served.requestsOf after t :=
        Served.mem_requestsOf (s := ⟨some t, ⟨.reserve handle.name, true⟩⟩) (by simp [hafter]) rfl
      rw [hsince] at hmem
      cases hmem
    · exact ⟨first, c, hbefore, hid⟩
  have hundecided : ∀ s ∈ before, ¬ s.request.Decides handle.id := by
    intro s hmem hdecides
    have hcaller := hdecided s (by simp [hserved, hmem]) hdecides
    have hmem' := Served.mem_requestsOf hmem hcaller
    rw [hpast, List.mem_singleton] at hmem'
    rw [hmem'] at hdecides
    exact hdecides
  have hok := ((Agrees.of_run (before.map Served.request)).confirm_ok_iff handle.id
    handle.name).mpr ⟨handle, hbefore.pending hundecided⟩
  have hsettled : Answer.settled ((Served.books before).confirm handle.id handle.name).2 = a := by
    simpa [Registry.serve, Registry.apply] using ha
  rw [← hsettled]
  exact congrArg Answer.settled hok

/-- A confirmation that succeeds decides in favour of the slot's owner, for good. -/
theorem confirmed {id : ServiceId} {name : String} {past : List (Request L)}
    (h : Answered served t (.confirm id name) past (.settled (.ok ()))) :
    ∃ before after owner, served = before ++ ⟨some t, ⟨.confirm id name, true⟩⟩ :: after ∧
      Served.requestsOf before t = past ∧ Served.requestsOf after t = [] ∧
      Served.stage before id = .pending owner ∧ Served.stage served id = .admitted owner := by
  obtain ⟨before, after, rfl, hpast, hsince, ha⟩ := h
  have hsettled : Answer.settled ((Served.books before).confirm id name).2 =
      (.settled (.ok ()) : Answer L) := by
    simpa [Registry.serve, Registry.apply] using ha
  obtain ⟨owner, hpending⟩ := ((Agrees.of_run (before.map Served.request)).confirm_ok_iff id
    name).mp (Answer.settled.inj hsettled)
  have hs := History.sound_of (before.map Served.request)
  have hnow : ((History.of (before.map Served.request)).extend
      ⟨.confirm id name, true⟩).stage id = .admitted owner := by
    simp [History.extend, hpending, History.move_stage]
  refine ⟨before, after, owner, rfl, hpast, hsince, hpending, ?_⟩
  rw [Served.stage_append]
  exact ((hs.extend _).stage_foldl (hnow ▸ trivial) _).trans hnow

theorem admitted {id : ServiceId} {name : String} {past : List (Request L)}
    (h : Answered served t (.confirm id name) past (.settled (.ok ()))) :
    ∃ owner, Served.stage served id = .admitted owner := by
  obtain ⟨-, -, owner, -, -, -, -, hadmitted⟩ := h.confirmed
  exact ⟨owner, hadmitted⟩

end Answered

/-- Every slot that is pending was issued. -/
theorem Served.issued_of_pending {served : List (Served L)}
    (hwaits : ∀ s ∈ served, s.request.callerWaits = true → s.caller ≠ none) {id : ServiceId}
    {owner : Handle} (hpending : stage served id = .pending owner) :
    ∃ t, Issued served t owner := by
  induction served using List.reverseRecOn with
  | nil => cases hpending
  | append_singleton served s ih =>
      have hbefore : ∀ s ∈ served, s.request.callerWaits = true → s.caller ≠ none :=
        fun s hmem => hwaits s (List.mem_append_left _ hmem)
      rw [stage_concat] at hpending
      rcases History.pending_extend_cases _ _ hpending with hold | ⟨name, hrequest, howner⟩
      · obtain ⟨t, ht⟩ := ih hbefore hold
        exact ⟨t, ht.append _⟩
      · obtain ⟨caller, request⟩ := s
        obtain rfl : request = ⟨.reserve name, true⟩ := hrequest
        have hcaller := hwaits _ (List.mem_append_right _ (List.mem_singleton_self _)) rfl
        obtain ⟨t, rfl⟩ := Option.ne_none_iff_exists'.mp hcaller
        refine ⟨t, served, [], ?_, ?_⟩
        · rw [howner]
        · rw [howner, lastId_books]

end EventHub
