import EventHub.Proofs.Views.Turn
import EventHub.Proofs.Workspace.Lasting

/-!
Calls for views among everything that goes on around them. Any number of calls are made for
any files and types, and take their turns one at a time and in any order; between two turns of
a call others change the workspace, register generators and keep views, generators hand over
what they have made, and the pool lets their jobs end how it likes. A move that makes no sense
at the moment changes nothing, so every sequence of moves is an interleaving, and there are no
others.
-/

namespace EventHub

/-- A workspace with its generators, and the calls for views by number. -/
structure Studio (P : Type) where
  workspace : Workspace := {}
  views : Views P := {}
  calls : Array (Generation.Call P) := #[]

namespace Studio

inductive Move (P : Type) where
  /-- What others ask of the workspace. -/
  | request (q : Workspace.Request)
  | register (generator : Views.Generator P)
  | call (file : EntryId) (viewType : String)
  /-- The generator of a call comes to its end. -/
  | handOver (call : Nat)
  /-- A turn of a call. It learns how the job of its generator has ended, if it waits for
  that, and what time it is, if it keeps a view. -/
  | turn (call : Nat) (job : Except JobError Unit) (now : Nat)

variable {P : Type}

/-- The move is a turn of this call. -/
def Move.isTurn (n : Nat) : Move P → Bool
  | .turn k _ _ => k = n
  | _ => false

/-- The call of this number takes a turn. -/
def turned (s : Studio P) (n : Nat) (job : Except JobError Unit) (now : Nat) :
    Workspace × Generation.Call P :=
  (s.calls[n]?.getD default).turn s.workspace s.views job now

/-- What generators make depends on the file and on its content only. -/
def step (generate : P → Entry → Bytes → Except String Bytes) (s : Studio P) : Move P → Studio P
  | .request q => { s with workspace := s.workspace.after q }
  | .register generator => { s with views := s.views.add generator }
  | .call file viewType => { s with calls := s.calls.push (.new file viewType) }
  | .handOver n => { s with calls := s.calls.modify n (·.handOver generate) }
  | .turn n job now =>
    { s with
      workspace := (s.turned n job now).1
      calls := s.calls.set! n (s.turned n job now).2 }

/-- From an empty workspace without generators. -/
def run (generate : P → Entry → Bytes → Except String Bytes) (moves : List (Move P)) : Studio P :=
  moves.foldl (step generate) {}

variable {generate : P → Entry → Bytes → Except String Bytes} {s : Studio P} {moves : List (Move P)}
  {n : Nat}

theorem run_append (first second : List (Move P)) :
    run generate (first ++ second) = second.foldl (step generate) (run generate first) :=
  List.foldl_append

theorem run_concat (moves : List (Move P)) (m : Move P) :
    run generate (moves ++ [m]) = step generate (run generate moves) m :=
  run_append moves [m]

/-! ### What a move changes -/

theorem turned_of_call {c : Generation.Call P} (h : s.calls[n]? = some c)
    (job : Except JobError Unit) (now : Nat) :
    s.turned n job now = c.turn s.workspace s.views job now := by
  rw [turned, h, Option.getD_some]

/-- A call that nobody has made would only be about to look. -/
theorem turned_of_none (h : s.calls[n]? = none) (job : Except JobError Unit) (now : Nat) :
    (s.turned n job now).1 = s.workspace := by
  rw [turned, h, Option.getD_none]
  rfl

variable (generate) in
theorem call_turn {c : Generation.Call P} (h : s.calls[n]? = some c) (job : Except JobError Unit)
    (now : Nat) :
    (step generate s (.turn n job now)).workspace = (c.turn s.workspace s.views job now).1 ∧
      (step generate s (.turn n job now)).calls[n]? =
        some (c.turn s.workspace s.views job now).2 := by
  obtain ⟨hlt, -⟩ := Array.getElem?_eq_some_iff.mp h
  rw [step, turned_of_call h, Array.set!_eq_setIfInBounds,
    Array.getElem?_setIfInBounds_self_of_lt hlt]
  exact ⟨rfl, rfl⟩

variable (generate) in
/-- A call goes on by turns of its own and by what its generator hands over. -/
theorem call_cases (m : Move P) {c : Generation.Call P} (h : s.calls[n]? = some c) :
    (m.isTurn n = false ∧ (step generate s m).calls[n]? = some c) ∨
      (m = .handOver n ∧ (step generate s m).calls[n]? = some (c.handOver generate)) ∨
      ∃ job now, m = .turn n job now ∧
        (step generate s m).workspace = (c.turn s.workspace s.views job now).1 ∧
        (step generate s m).calls[n]? = some (c.turn s.workspace s.views job now).2 := by
  obtain ⟨hlt, -⟩ := Array.getElem?_eq_some_iff.mp h
  cases m with
  | request q => exact Or.inl ⟨rfl, h⟩
  | register generator => exact Or.inl ⟨rfl, h⟩
  | call file viewType =>
      left
      rw [step, Array.getElem?_push_lt hlt]
      exact ⟨rfl, (Array.getElem?_eq_getElem hlt).symm.trans h⟩
  | handOver k =>
      rw [step, Array.getElem?_modify]
      by_cases hk : k = n
      · subst hk
        right
        left
        simp [h]
      · left
        rw [if_neg hk]
        exact ⟨rfl, h⟩
  | turn k job now =>
      by_cases hk : k = n
      · subst hk
        right
        right
        exact ⟨job, now, rfl, call_turn generate h job now⟩
      · left
        rw [step, Array.set!_eq_setIfInBounds, Array.getElem?_setIfInBounds_ne hk]
        exact ⟨decide_eq_false hk, h⟩

variable (generate) in
/-- A number that no call has is given to the next one. -/
theorem newCall_cases (m : Move P) (h : s.calls[n]? = none) :
    (step generate s m).calls[n]? = none ∨
      ∃ file viewType, m = .call file viewType ∧
        (step generate s m).calls[n]? = some (.new file viewType) := by
  have hsize : s.calls.size ≤ n := Array.getElem?_eq_none_iff.mp h
  cases m with
  | request q => exact Or.inl h
  | register generator => exact Or.inl h
  | call file viewType =>
      rw [step, Array.getElem?_push]
      by_cases hn : n = s.calls.size
      · exact Or.inr ⟨file, viewType, rfl, if_pos hn⟩
      · exact Or.inl (by rw [if_neg hn]; exact h)
  | handOver k =>
      left
      rw [step, Array.getElem?_modify]
      simp [h]
  | turn k job now =>
      left
      rw [step, Array.getElem?_eq_none_iff, Array.size_set!]
      exact hsize

/-- The workspace changes by what others ask of it, and when a call keeps its view. -/
theorem workspace_cases (generate : P → Entry → Bytes → Except String Bytes) (s : Studio P)
    (m : Move P) :
    (step generate s m).workspace = s.workspace ∨
      (∃ q, m = .request q ∧ (step generate s m).workspace = s.workspace.after q) ∨
      ∃ k g revision data stamp r, (∃ job now, m = .turn k job now) ∧
        s.calls[k]? = some ⟨g, .keeping revision data⟩ ∧
        s.workspace.store g.file revision g.viewType data stamp =
          .ok ((step generate s m).workspace, r) := by
  cases m with
  | request q => exact Or.inr (Or.inl ⟨q, rfl, rfl⟩)
  | turn k job now =>
      cases hcall : s.calls[k]? with
      | none => exact Or.inl (turned_of_none hcall job now)
      | some c =>
          have hturned := c.turned s.workspace s.views job now
          rw [← turned_of_call hcall] at hturned
          simp only [step]
          generalize s.turned k job now = next at hturned
          obtain ⟨w', c'⟩ := next
          cases hturned with
          | kept g revision data stamp w' r hstore =>
              right
              right
              exact ⟨k, g, revision, data, stamp, r, ⟨job, now, rfl⟩, hcall, hstore⟩
          | _ => exact Or.inl rfl
  | _ => exact Or.inl rfl

/-- Whoever changes the workspace, it is by a request. -/
theorem workspace_after (generate : P → Entry → Bytes → Except String Bytes) (s : Studio P)
    (m : Move P) :
    (step generate s m).workspace = s.workspace ∨
      ∃ q, (step generate s m).workspace = s.workspace.after q := by
  rcases workspace_cases generate s m with hsame | ⟨q, -, hq⟩ |
    ⟨k, g, revision, data, stamp, r, -, -, hstore⟩
  · exact Or.inl hsame
  · exact Or.inr ⟨q, hq⟩
  · right
    refine ⟨.store g.file revision g.viewType data stamp, ?_⟩
    rw [Workspace.after, hstore]
    rfl

variable (generate) in
theorem entry_step (hw : s.workspace.Coherent) (m : Move P) {file : EntryId} {e : Entry}
    (h : s.workspace.entry file = .ok e) :
    (step generate s m).workspace.entry file = .ok e := by
  rw [Workspace.entry_eq_ok_iff] at h ⊢
  rcases workspace_after generate s m with hsame | ⟨q, hq⟩
  · rw [hsame]
    exact h
  · rw [hq]
    exact hw.entry_after q h

/-- What a file holds stays unless others update the file. -/
theorem snapshot_step (hw : s.workspace.Coherent) (m : Move P) {file : EntryId} {c : Content}
    (h : s.workspace.snapshot file = .ok c) :
    (step generate s m).workspace.snapshot file = .ok c ∨
      ∃ q, m = .request q ∧ s.workspace.Updates q file := by
  rcases workspace_cases generate s m with hsame | ⟨q, hm, hq⟩ |
    ⟨k, g, revision, data, stamp, r, -, -, hstore⟩
  · rw [hsame]
    exact Or.inl h
  · rw [hq]
    rcases hw.snapshot_after q h with hkept | hupdates
    · exact Or.inl hkept
    · exact Or.inr ⟨q, hm, hupdates⟩
  · left
    have hafter : (step generate s m).workspace =
        s.workspace.after (.store g.file revision g.viewType data stamp) := by
      rw [Workspace.after, hstore]
      rfl
    rw [hafter]
    rcases hw.snapshot_after (.store g.file revision g.viewType data stamp) h with hkept | hupdates
    · exact hkept
    · obtain ⟨_, _, _, hq, -⟩ := hupdates
      cases hq

/-! ### What holds in every state of a run -/

theorem coherent_run (moves : List (Move P)) : (run generate moves).workspace.Coherent := by
  induction moves using List.reverseRecOn with
  | nil => exact Workspace.coherent_empty
  | append_singleton moves m ih =>
      rw [run_concat]
      rcases workspace_after generate (run generate moves) m with hsame | ⟨q, hq⟩
      · rw [hsame]
        exact ih
      · rw [hq]
        exact ih.after q

/-- A generator that is found was registered, and for the type it is found under. -/
theorem registered_run {viewType : String} {generator : Views.Generator P}
    (h : (run generate moves).views.generator? viewType = some generator) :
    .register generator ∈ moves ∧ generator.viewType = viewType := by
  have hregistered : ∀ g ∈ (run generate moves).views.generators, .register g ∈ moves := by
    clear h
    induction moves using List.reverseRecOn with
    | nil =>
        intro g hg
        cases hg
    | append_singleton moves m ih =>
        intro g hg
        rw [run_concat] at hg
        rw [List.mem_append, List.mem_singleton]
        cases m with
        | register added =>
            rcases List.mem_append.mp hg with hold | hnew
            · exact Or.inl (ih g (List.mem_filter.mp hold).1)
            · right
              rw [List.mem_singleton.mp hnew]
        | _ => exact Or.inl (ih g hg)
  rw [Views.generator?] at h
  exact ⟨hregistered generator (List.mem_of_find?_eq_some h), by simpa using List.find?_some h⟩

/-- What every move keeps is kept as a run goes on. -/
theorem keeps_onward {p : Studio P → Prop} {seen : List (Move P)} (h : seen <+: moves)
    (hstep : ∀ s m, s.workspace.Coherent → p s → p (step generate s m))
    (hseen : p (run generate seen)) : p (run generate moves) := by
  obtain ⟨rest, rfl⟩ := h
  induction rest using List.reverseRecOn with
  | nil =>
      rw [List.append_nil]
      exact hseen
  | append_singleton rest m ih =>
      rw [← List.append_assoc, run_concat]
      exact hstep _ m (coherent_run _) ih

variable (generate) in
/-- Between two states of a run the workspace goes through requests. -/
theorem workspace_onward {seen : List (Move P)} (h : seen <+: moves) :
    ∃ requests, (run generate moves).workspace = (run generate seen).workspace.run requests := by
  let reached (s : Studio P) : Prop :=
    ∃ requests, s.workspace = (run generate seen).workspace.run requests
  refine keeps_onward (p := reached) h ?_ ⟨[], rfl⟩
  rintro s m - ⟨requests, hrequests⟩
  rcases workspace_after generate s m with hsame | ⟨q, hq⟩
  · exact ⟨requests, hsame.trans hrequests⟩
  · refine ⟨requests ++ [q], ?_⟩
    rw [hq, hrequests, Workspace.run_concat]

theorem precedes_onward {seen : List (Move P)} (h : seen <+: moves) {file : EntryId} {c : Content}
    (hc : (run generate seen).workspace.snapshot file = .ok c) :
    ∃ later, (run generate moves).workspace.snapshot file = .ok later ∧ c.Precedes later := by
  obtain ⟨requests, hrequests⟩ := workspace_onward generate h
  have hw : (run generate seen).workspace.Coherent := coherent_run seen
  rw [hw.snapshot_eq_ok_iff] at hc
  obtain ⟨later, hlater, hprecedes⟩ := hw.precedes_run requests hc
  refine ⟨later, ?_, hprecedes⟩
  rw [hrequests, (hw.run requests).snapshot_eq_ok_iff]
  exact hlater

/-- What a file held at one revision, it held whenever it had this revision. -/
theorem content_unique {seen seen' : List (Move P)} (h : seen <+: moves) (h' : seen' <+: moves)
    {file : EntryId} {c c' : Content}
    (hc : (run generate seen).workspace.snapshot file = .ok c)
    (hc' : (run generate seen').workspace.snapshot file = .ok c')
    (hrevision : c'.revision = c.revision) : c' = c := by
  rcases List.prefix_or_prefix_of_prefix h h' with hle | hle
  · obtain ⟨later, hlater, hprecedes⟩ := precedes_onward hle hc
    cases hlater.symm.trans hc'
    exact hprecedes.eq_of_revision hrevision
  · obtain ⟨later, hlater, hprecedes⟩ := precedes_onward hle hc'
    cases hlater.symm.trans hc
    exact (hprecedes.eq_of_revision hrevision.symm).symm

/-- A file whose revision has changed was updated in between. -/
theorem updated_between {seen : List (Move P)} (h : seen <+: moves) {file : EntryId}
    {c c' : Content}
    (hc : (run generate seen).workspace.snapshot file = .ok c)
    (hc' : (run generate moves).workspace.snapshot file = .ok c')
    (hchanged : c'.revision ≠ c.revision) :
    ∃ before q, seen <+: before ∧ before ++ [.request q] <+: moves ∧
      (run generate before).workspace.Updates q file := by
  obtain ⟨rest, rfl⟩ := h
  induction rest using List.reverseRecOn generalizing c' with
  | nil =>
      rw [List.append_nil] at hc'
      cases hc.symm.trans hc'
      exact absurd rfl hchanged
  | append_singleton rest m ih =>
      rw [← List.append_assoc] at hc' ⊢
      obtain ⟨between, hbetween, -⟩ := precedes_onward (List.prefix_append seen rest) hc
      rw [run_concat] at hc'
      rcases snapshot_step (coherent_run (seen ++ rest)) m hbetween with hsame | ⟨q, rfl, hupdates⟩
      · cases hsame.symm.trans hc'
        obtain ⟨before, q, hseen, hbefore, hupdates⟩ := ih hchanged hbetween
        exact ⟨before, q, hseen, hbefore.trans (List.prefix_append _ _), hupdates⟩
      · exact ⟨seen ++ rest, q, List.prefix_append seen rest, List.prefix_rfl, hupdates⟩

end Studio

end EventHub
