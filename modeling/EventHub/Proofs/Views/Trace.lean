import EventHub.Proofs.Views.Studio

/-!
Where a call for a view has what it holds from. Every turn of a call is at some point of the
run, and sees the workspace as it is there: so for every stage that a call can be at, there are
points of the run at which it missed the cache, took the content that its generator works on,
and found its data outdated. What is so at one point stays so, which makes this an invariant
of each call by itself, whatever the others do.
-/

namespace EventHub.Studio

open Generation

variable {P : Type}

section

variable (generate : P → Entry → Bytes → Except String Bytes) (moves : List (Move P)) (n : Nat)

/-- After the moves `seen` it was the turn of a call that had come this far. -/
structure Turns (c : Generation.Call P) (seen : List (Move P)) : Prop where
  turn : ∃ job now, seen ++ [.turn n job now] <+: moves
  call : (run generate seen).calls[n]? = some c

/-- The attempt found that there was no view yet. -/
def Missed (g : Generation) (seen : List (Move P)) : Prop :=
  Turns generate moves n ⟨g, .looking .kept⟩ seen ∧
    (run generate seen).workspace.view? g.file g.viewType = .ok none

/-- The attempt took this content of the file. -/
def Taken (g : Generation) (content : Content) (seen : List (Move P)) : Prop :=
  (∃ generator entry, Turns generate moves n ⟨g, .looking (.content generator entry)⟩ seen) ∧
    (run generate seen).workspace.snapshot g.file = .ok content

/-- Between the turn in which the attempt took the content and the one in which it wanted to
keep its data, the file was updated. -/
def Overtaken (g : Generation) : Prop :=
  ∃ content taken data stored before q,
    Taken generate moves n g content taken ∧
    Turns generate moves n ⟨g, .keeping content.revision data⟩ stored ∧
    taken <+: before ∧ before ++ [.request q] <+: stored ∧
    (run generate before).workspace.Updates q g.file

/-- What the attempt works with: a generator that was registered for the type, and the entry of
the file. -/
structure Source (g : Generation) (generator : Views.Generator P) (entry : Entry) : Prop where
  registered : .register generator ∈ moves
  viewType : generator.viewType = g.viewType
  entry : (run generate moves).workspace.entry g.file = .ok entry

/-- The call came to its end with this view in a turn that found it, or that kept it. It is of
what the file held at that point. -/
structure Delivered (g : Generation) (r : View) : Prop where
  file : r.file = g.file
  viewType : r.viewType = g.viewType
  last : ∃ stage seen content job now,
    (stage = .looking .kept ∨ ∃ revision data, stage = .keeping revision data) ∧
    (run generate seen).calls[n]? = some ⟨g, stage⟩ ∧
    seen ++ [.turn n job now] <+: moves ∧
    (run generate (seen ++ [.turn n job now])).calls[n]? =
      some ⟨g, .ended (.returned (.ok (some r)))⟩ ∧
    (run generate (seen ++ [.turn n job now])).workspace.view? g.file g.viewType = .ok (some r) ∧
    (run generate seen).workspace.snapshot g.file = .ok content ∧ content.revision = r.revision

/-- What is known of an attempt at each stage. -/
inductive Traced (g : Generation) : Generation.Stage P → Prop where
  | kept : Traced g (.looking .kept)
  | generator (missed : List (Move P)) (hmissed : Missed generate moves n g missed) :
      Traced g (.looking .generator)
  | entry (generator : Views.Generator P) (missed : List (Move P))
      (hmissed : Missed generate moves n g missed) (hregistered : .register generator ∈ moves)
      (htype : generator.viewType = g.viewType) : Traced g (.looking (.entry generator))
  | content (generator : Views.Generator P) (entry : Entry) (missed : List (Move P))
      (hmissed : Missed generate moves n g missed)
      (hsource : Source generate moves g generator entry) :
      Traced g (.looking (.content generator entry))
  | rendering (generator : Views.Generator P) (entry : Entry) (content : Content)
      (made : Option Bytes) (missed taken : List (Move P))
      (hmissed : Missed generate moves n g missed)
      (hsource : Source generate moves g generator entry)
      (htaken : Taken generate moves n g content taken)
      (hmade : ∀ data, made = some data →
        generate generator.plugin entry content.data = .ok data) :
      Traced g (.rendering generator entry content made)
  | keeping (generator : Views.Generator P) (entry : Entry) (content : Content) (data : Bytes)
      (missed taken : List (Move P)) (hmissed : Missed generate moves n g missed)
      (hsource : Source generate moves g generator entry)
      (htaken : Taken generate moves n g content taken)
      (hmade : generate generator.plugin entry content.data = .ok data) :
      Traced g (.keeping content.revision data)
  | ended (outcome : Outcome Result)
      (hview : ∀ r, outcome = .returned (.ok (some r)) → Delivered generate moves n g r)
      (hstale : IsStale outcome →
        ∀ k, 1 ≤ k → k ≤ maxAttempts → Overtaken generate moves n { g with attempt := k }) :
      Traced g (.ended outcome)

/-- What is known of a call: of the attempt it is at, and that each one before was overtaken. -/
structure Accounted (c : Generation.Call P) : Prop where
  attempt_pos : 1 ≤ c.generation.attempt
  attempt_le : c.generation.attempt ≤ maxAttempts
  earlier : ∀ k, 1 ≤ k → k < c.generation.attempt →
    Overtaken generate moves n { c.generation with attempt := k }
  traced : Traced generate moves n c.generation c.stage

end

variable {generate : P → Entry → Bytes → Except String Bytes} {moves later : List (Move P)}
  {n : Nat} {g : Generation}

/-! ### What is so stays so -/

theorem Turns.mono {c : Generation.Call P} {seen : List (Move P)}
    (h : Turns generate moves n c seen) (hle : moves <+: later) :
    Turns generate later n c seen := by
  obtain ⟨job, now, hturn⟩ := h.turn
  exact ⟨⟨job, now, hturn.trans hle⟩, h.call⟩

theorem Missed.mono {seen : List (Move P)} (h : Missed generate moves n g seen)
    (hle : moves <+: later) : Missed generate later n g seen :=
  ⟨h.1.mono hle, h.2⟩

theorem Taken.mono {content : Content} {seen : List (Move P)}
    (h : Taken generate moves n g content seen) (hle : moves <+: later) :
    Taken generate later n g content seen := by
  obtain ⟨⟨generator, entry, hturns⟩, hsnapshot⟩ := h
  exact ⟨⟨generator, entry, hturns.mono hle⟩, hsnapshot⟩

theorem Taken.seen {content : Content} {seen : List (Move P)}
    (h : Taken generate moves n g content seen) : seen <+: moves := by
  obtain ⟨⟨_, _, ⟨⟨job, now, hturn⟩, -⟩⟩, -⟩ := h
  exact (List.prefix_append seen _).trans hturn

theorem Overtaken.mono (h : Overtaken generate moves n g) (hle : moves <+: later) :
    Overtaken generate later n g := by
  obtain ⟨content, taken, data, stored, before, q, htaken, hstored, hbetween⟩ := h
  exact ⟨content, taken, data, stored, before, q, htaken.mono hle, hstored.mono hle, hbetween⟩

theorem Source.mono {generator : Views.Generator P} {entry : Entry}
    (h : Source generate moves g generator entry) (hle : moves <+: later) :
    Source generate later g generator entry := by
  refine ⟨hle.subset h.registered, h.viewType, ?_⟩
  refine keeps_onward (p := fun s => s.workspace.entry g.file = .ok entry) hle ?_ h.entry
  intro s m hw hentry
  exact entry_step generate hw m hentry

theorem Delivered.mono {r : View} (h : Delivered generate moves n g r) (hle : moves <+: later) :
    Delivered generate later n g r := by
  obtain ⟨stage, seen, content, job, now, hstage, hcall, hturn, hlast⟩ := h.last
  exact ⟨h.file, h.viewType, stage, seen, content, job, now, hstage, hcall, hturn.trans hle, hlast⟩

theorem Traced.mono {stage : Generation.Stage P} (h : Traced generate moves n g stage)
    (hle : moves <+: later) :
    Traced generate later n g stage := by
  cases h with
  | kept => exact .kept
  | generator missed hmissed => exact .generator missed (hmissed.mono hle)
  | entry generator missed hmissed hregistered htype =>
      exact .entry generator missed (hmissed.mono hle) (hle.subset hregistered) htype
  | content generator entry missed hmissed hsource =>
      exact .content generator entry missed (hmissed.mono hle) (hsource.mono hle)
  | rendering generator entry content made missed taken hmissed hsource htaken hmade =>
      exact .rendering generator entry content made missed taken (hmissed.mono hle)
        (hsource.mono hle) (htaken.mono hle) hmade
  | keeping generator entry content data missed taken hmissed hsource htaken hmade =>
      exact .keeping generator entry content data missed taken (hmissed.mono hle)
        (hsource.mono hle) (htaken.mono hle) hmade
  | ended outcome hview hstale =>
      exact .ended outcome (fun r hr => (hview r hr).mono hle)
        fun h k hpos hlast => (hstale h k hpos hlast).mono hle

theorem Accounted.mono {c : Generation.Call P} (h : Accounted generate moves n c)
    (hle : moves <+: later) :
    Accounted generate later n c where
  attempt_pos := h.attempt_pos
  attempt_le := h.attempt_le
  earlier k hpos hlt := (h.earlier k hpos hlt).mono hle
  traced := h.traced.mono hle

/-! ### One turn -/

/-- Data that is outdated when it is to be kept has been overtaken. -/
theorem overtaken_of_changed {revision : Revision} {data : Bytes} {content : Content}
    (htraced : Traced generate moves n g (.keeping revision data))
    (hturns : Turns generate later n ⟨g, .keeping revision data⟩ moves) (hle : moves <+: later)
    (hcontent : (run generate moves).workspace.snapshot g.file = .ok content)
    (hchanged : content.revision ≠ revision) : Overtaken generate later n g := by
  cases htraced with
  | keeping generator entry old data missed taken hmissed hsource htaken hmade =>
      obtain ⟨before, q, htakenBefore, hbefore, hupdates⟩ :=
        updated_between htaken.seen htaken.2 hcontent hchanged
      exact ⟨old, taken, data, moves, before, q, htaken.mono hle, hturns, htakenBefore, hbefore,
        hupdates⟩

/-- A view that is found is of what the file holds. -/
theorem delivered_found {r : View} {job : Except JobError Unit} {now : Nat}
    (hcall : (run generate moves).calls[n]? = some ⟨g, .looking .kept⟩)
    (hfound : (run generate moves).workspace.view? g.file g.viewType = .ok (some r))
    (hended : (run generate (moves ++ [.turn n job now])).calls[n]? =
      some ⟨g, .ended (.returned (.ok (some r)))⟩)
    (hsame : (run generate (moves ++ [.turn n job now])).workspace =
      (run generate moves).workspace) :
    Delivered generate (moves ++ [.turn n job now]) n g r := by
  obtain ⟨data, hkept⟩ := Workspace.kept_of_view? hfound
  obtain ⟨hfile, htype, content, hcontent, hrevision⟩ :=
    (coherent_run moves).snapshot_of_lookup hkept
  exact ⟨hfile, htype, .looking .kept, moves, content, job, now, Or.inl rfl, hcall, List.prefix_rfl,
    hended, by rw [hsame]; exact hfound, hcontent, hrevision⟩

/-- A view that is kept is of what the file holds. -/
theorem delivered_kept {r : View} {revision : Revision} {data : Bytes} {stamp : Nat}
    {job : Except JobError Unit} {now : Nat}
    (hcall : (run generate moves).calls[n]? = some ⟨g, .keeping revision data⟩)
    (hstore : (run generate moves).workspace.store g.file revision g.viewType data stamp =
      .ok ((run generate (moves ++ [.turn n job now])).workspace, r))
    (hended : (run generate (moves ++ [.turn n job now])).calls[n]? =
      some ⟨g, .ended (.returned (.ok (some r)))⟩) :
    Delivered generate (moves ++ [.turn n job now]) n g r := by
  obtain ⟨content, hcontent, hrevision⟩ := Workspace.snapshot_of_store hstore
  obtain ⟨-, ⟨e, he, -⟩, -, rfl, hview⟩ := Workspace.store_ok hstore
  have hkept : (run generate (moves ++ [.turn n job now])).workspace.view? g.file g.viewType =
      .ok (some { file := g.file, viewType := g.viewType, revision, stamp }) := by
    rw [hview, Workspace.view?_eq_ok_iff, Workspace.lookup_withView, if_pos rfl]
    exact ⟨Option.isSome_of_eq_some he, rfl⟩
  exact ⟨rfl, rfl, .keeping revision data, moves, content, job, now, Or.inr ⟨revision, data, rfl⟩,
    hcall, List.prefix_rfl, hended, hkept, hcontent, hrevision⟩

theorem Traced.of_delivered {r : View} (h : Delivered generate moves n g r) :
    Traced generate moves n g (.ended (.returned (.ok (some r)))) := by
  apply Traced.ended
  · rintro _ ⟨⟩
    exact h
  · rintro ⟨file, old, current, hstale⟩
    cases hstale

/-- Each turn of a call is accounted for by what the call saw in it. -/
theorem Accounted.turn {c : Generation.Call P} (h : Accounted generate moves n c)
    (hcall : (run generate moves).calls[n]? = some c) (job : Except JobError Unit) (now : Nat)
    {c' : Generation.Call P}
    (hcall' : (run generate (moves ++ [.turn n job now])).calls[n]? = some c')
    (hturned : Turned (run generate moves).workspace (run generate moves).views c
      (run generate (moves ++ [.turn n job now])).workspace c') :
    Accounted generate (moves ++ [.turn n job now]) n c' := by
  have hle : moves <+: moves ++ [.turn n job now] := List.prefix_append _ _
  have hturns : Turns generate (moves ++ [.turn n job now]) n c moves :=
    ⟨⟨job, now, List.prefix_rfl⟩, hcall⟩
  obtain ⟨hpos, hlast, hearlier, htraced⟩ := h.mono hle
  have hbefore := h.traced
  generalize hw : (run generate (moves ++ [.turn n job now])).workspace = w' at hturned
  cases hturned with
  | found g r hfound =>
      have hdelivered := delivered_found hcall hfound hcall' hw
      exact ⟨hpos, hlast, hearlier, .of_delivered hdelivered⟩
  | missed g hmissed => exact ⟨hpos, hlast, hearlier, .generator moves ⟨hturns, hmissed⟩⟩
  | chosen g generator hfound =>
      obtain ⟨hregistered, htype⟩ := registered_run hfound
      cases htraced with
      | generator missed hmissed =>
          exact ⟨hpos, hlast, hearlier,
            .entry generator missed hmissed (hle.subset hregistered) htype⟩
  | accepted g generator entry hentry =>
      have hentry' := entry_step generate (coherent_run moves) (.turn n job now) hentry
      rw [← run_concat] at hentry'
      cases htraced with
      | entry _ missed hmissed hregistered htype =>
          exact ⟨hpos, hlast, hearlier,
            .content generator entry missed hmissed ⟨hregistered, htype, hentry'⟩⟩
  | begun g generator entry content hcontent =>
      cases htraced with
      | content _ _ missed hmissed hsource =>
          have htaken : Taken generate (moves ++ [.turn n job now]) n g content moves :=
            ⟨⟨generator, entry, hturns⟩, hcontent⟩
          refine ⟨hpos, hlast, hearlier,
            .rendering generator entry content none missed moves hmissed hsource htaken ?_⟩
          intro data hdata
          cases hdata
  | collected g generator entry content data =>
      cases htraced with
      | rendering _ _ _ _ missed taken hmissed hsource htaken hmade =>
          exact ⟨hpos, hlast, hearlier,
            .keeping generator entry content data missed taken hmissed hsource htaken
              (hmade data rfl)⟩
  | kept g revision data stamp _ r hstore =>
      rw [← hw] at hstore
      have hdelivered := delivered_kept hcall hstore hcall'
      exact ⟨hpos, hlast, hearlier, .of_delivered hdelivered⟩
  | overtaken g revision data content hcontent hchanged hattempt =>
      have hovertaken := overtaken_of_changed hbefore hturns hle hcontent hchanged
      refine ⟨Nat.le_add_left 1 _, hattempt, ?_, .kept⟩
      intro k hk hlt
      rcases Nat.lt_succ_iff_lt_or_eq.mp hlt with hlt | rfl
      · exact hearlier k hk hlt
      · exact hovertaken
  | givenUp g revision data content hcontent hchanged hattempt =>
      have hovertaken := overtaken_of_changed hbefore hturns hle hcontent hchanged
      refine ⟨hpos, hlast, hearlier, .ended _ ?_ ?_⟩
      · rintro r ⟨⟩
      · intro _ k hk hmax
        rcases Nat.lt_or_eq_of_le (Nat.le_trans hmax hattempt) with hlt | rfl
        · exact hearlier k hk hlt
        · exact hovertaken
  | failed g stage outcome hstage hviewless hstale =>
      refine ⟨hpos, hlast, hearlier, .ended outcome ?_ ?_⟩
      · exact fun r hr => absurd hr (hviewless r)
      · exact fun h => absurd h hstale
  | finished g outcome => exact ⟨hpos, hlast, hearlier, htraced⟩

/-- What a generator hands over it has made of the content that its call took. -/
theorem Accounted.handOver {c : Generation.Call P} (h : Accounted generate moves n c) :
    Accounted generate moves n (c.handOver generate) := by
  obtain ⟨g, stage⟩ := c
  cases stage with
  | rendering generator entry content made =>
      refine ⟨h.attempt_pos, h.attempt_le, h.earlier, ?_⟩
      cases h.traced with
      | rendering _ _ _ _ missed taken hmissed hsource htaken hmade =>
          refine .rendering generator entry content _ missed taken hmissed hsource htaken ?_
          intro data hdata
          cases hgenerate : generate generator.plugin entry content.data with
          | error reason =>
              rw [hgenerate] at hdata
              cases hdata
          | ok made =>
              rw [hgenerate] at hdata
              cases hdata
              rfl
  | _ => exact h

/-- In every state of a run, every call is accounted for. -/
theorem accounted_run (moves : List (Move P)) :
    ∀ (n : Nat) (c : Generation.Call P), (run generate moves).calls[n]? = some c →
      Accounted generate moves n c := by
  induction moves using List.reverseRecOn with
  | nil =>
      intro n c hcall
      cases hcall
  | append_singleton moves m ih =>
      intro n c' hcall'
      have hle : moves <+: moves ++ [m] := List.prefix_append _ _
      cases hcall : (run generate moves).calls[n]? with
      | none =>
          have hnew := newCall_cases generate m hcall
          rw [← run_concat, hcall'] at hnew
          obtain hnone | ⟨file, viewType, -, hsome⟩ := hnew
          · cases hnone
          · cases hsome
            have hfirst : 1 ≤ maxAttempts := by decide
            refine ⟨Nat.le_refl 1, hfirst, ?_, .kept⟩
            intro k hk hlt
            exact absurd hlt (Nat.not_lt.mpr hk)
      | some c =>
          have haccounted := ih n c hcall
          have hcases := call_cases generate m hcall
          simp only [← run_concat, hcall'] at hcases
          rcases hcases with ⟨-, hsame⟩ | ⟨rfl, hmade⟩ | ⟨job, now, rfl, hworkspace, hturned⟩
          · cases hsame
            exact haccounted.mono hle
          · cases hmade
            exact haccounted.handOver.mono hle
          · cases hturned
            refine haccounted.turn hcall job now hcall' ?_
            rw [hworkspace]
            exact c.turned _ _ _ _

end EventHub.Studio
