import EventHub.Proofs.Names
import EventHub.Proofs.Stores.Reach

/-!
Types of symbols and of references over all that they were ever asked to take up. Each call
is carried out while the types are locked, so however its callers overlap, the types go
through the calls one after another. What they hold, and what they answer, is told by the
calls that were accepted before; and which ones were, by the calls alone.
-/

namespace EventHub

namespace MappingTypes

/-- What the types are asked to take up. -/
inductive Call where
  | symbol (name : String)
  | reference (name symbol : String)
  deriving DecidableEq

/-- The types with what the call asks for, or the reason why it is refused. -/
def attempt (t : MappingTypes) : Call → Except MappingError MappingTypes
  | .symbol name => t.addSymbol name
  | .reference name symbol => t.addReference name symbol

/-- The call is one that these types take up. -/
def Accepts (t : MappingTypes) (c : Call) : Prop := ∃ t', t.attempt c = .ok t'

/-- The types after a call. One that is refused leaves them as they were. -/
def after (t : MappingTypes) (c : Call) : MappingTypes :=
  match t.attempt c with
  | .ok t' => t'
  | .error _ => t

/-- The types after a sequence of calls. -/
def run (t : MappingTypes) (calls : List Call) : MappingTypes := calls.foldl after t

/-- Among these calls is one like this that was accepted when its turn came. -/
def Registered (calls : List Call) (c : Call) : Prop :=
  ∃ before, before ++ [c] <+: calls ∧ (run {} before).Accepts c

variable {t : MappingTypes} {calls : List Call} {c d : Call} {name symbol : String}

theorem run_append (t : MappingTypes) (first second : List Call) :
    t.run (first ++ second) = (t.run first).run second :=
  List.foldl_append

theorem run_concat (t : MappingTypes) (calls : List Call) (c : Call) :
    t.run (calls ++ [c]) = (t.run calls).after c := by
  rw [run_append]
  rfl

/-! ### One call -/

theorem attempt_symbol_known (h : name ∈ t.symbols) :
    t.attempt (.symbol name) = .error (.symbolTypeRegistered name) := by
  rw [attempt, addSymbol, if_pos h]

theorem attempt_symbol_new (h : name ∉ t.symbols) :
    t.attempt (.symbol name) = .ok { t with symbols := t.symbols ++ [name] } := by
  rw [attempt, addSymbol, if_neg h]

/-- Whatever else is wrong with it, a reference to a missing symbol is refused for that. -/
theorem attempt_reference_dangling (h : symbol ∉ t.symbols) :
    t.attempt (.reference name symbol) = .error (.symbolTypeNotRegistered symbol) := by
  rw [attempt, addReference, if_pos h]

theorem attempt_reference_known (hsymbol : symbol ∈ t.symbols)
    (h : (t.references.lookup name).isSome) :
    t.attempt (.reference name symbol) = .error (.referenceTypeRegistered name) := by
  rw [attempt, addReference, if_neg (not_not.mpr hsymbol), if_pos h]

theorem attempt_reference_new (hsymbol : symbol ∈ t.symbols)
    (h : t.references.lookup name = none) :
    t.attempt (.reference name symbol) =
      .ok { t with references := t.references ++ [(name, symbol)] } := by
  rw [attempt, addReference, if_neg (not_not.mpr hsymbol), h]
  rfl

theorem accepts_symbol_iff : t.Accepts (.symbol name) ↔ name ∉ t.symbols := by
  constructor
  · rintro ⟨t', h⟩ hknown
    cases (attempt_symbol_known hknown).symm.trans h
  · exact fun hnew => ⟨_, attempt_symbol_new hnew⟩

theorem accepts_reference_iff : t.Accepts (.reference name symbol) ↔
    symbol ∈ t.symbols ∧ t.references.lookup name = none := by
  constructor
  · rintro ⟨t', h⟩
    by_cases hsymbol : symbol ∈ t.symbols
    · refine ⟨hsymbol, ?_⟩
      cases hfound : t.references.lookup name with
      | none => rfl
      | some other =>
          cases (attempt_reference_known hsymbol (Option.isSome_of_eq_some hfound)).symm.trans h
    · cases (attempt_reference_dangling hsymbol).symm.trans h
  · exact fun ⟨hsymbol, hnew⟩ => ⟨_, attempt_reference_new hsymbol hnew⟩

/-- What one call makes of the types. -/
inductive Change (t : MappingTypes) : Call → MappingTypes → Prop where
  | refused (c : Call) (h : ¬ t.Accepts c) : Change t c t
  | symbol (name : String) (h : t.Accepts (.symbol name)) :
      Change t (.symbol name) { t with symbols := t.symbols ++ [name] }
  | reference (name symbol : String) (h : t.Accepts (.reference name symbol)) :
      Change t (.reference name symbol)
        { t with references := t.references ++ [(name, symbol)] }

theorem after_of_refused (h : ¬ t.Accepts c) : t.after c = t := by
  rw [after]
  split
  · rename_i t' hok
    exact absurd ⟨t', hok⟩ h
  · rfl

theorem change_after (t : MappingTypes) (c : Call) : Change t c (t.after c) := by
  by_cases h : t.Accepts c
  · cases c with
    | symbol name =>
        rw [after, attempt_symbol_new (accepts_symbol_iff.mp h)]
        exact .symbol name h
    | reference name symbol =>
        obtain ⟨hsymbol, hnew⟩ := accepts_reference_iff.mp h
        rw [after, attempt_reference_new hsymbol hnew]
        exact .reference name symbol h
  · rw [after_of_refused h]
    exact .refused c h

/-! ### All calls -/

theorem registered_concat : Registered (calls ++ [c]) d ↔
    Registered calls d ∨ (d = c ∧ (run {} calls).Accepts c) := by
  constructor
  · rintro ⟨before, hbefore, haccepts⟩
    rcases List.prefix_concat_iff.mp hbefore with hlast | hearlier
    · obtain ⟨rfl, hd⟩ := List.append_inj' hlast rfl
      obtain rfl : d = c := by simpa using hd
      exact Or.inr ⟨rfl, haccepts⟩
    · exact Or.inl ⟨before, hearlier, haccepts⟩
  · rintro (⟨before, hbefore, haccepts⟩ | ⟨rfl, haccepts⟩)
    · exact ⟨before, hbefore.trans (List.prefix_append calls [c]), haccepts⟩
    · exact ⟨calls, List.prefix_rfl, haccepts⟩

theorem not_registered_nil (c : Call) : ¬ Registered [] c := by
  rintro ⟨before, hbefore, -⟩
  simpa using hbefore.length_le

/-- The types are those that the accepted calls have asked for. -/
structure Follows (t : MappingTypes) (calls : List Call) : Prop where
  symbols : ∀ name, name ∈ t.symbols ↔ Registered calls (.symbol name)
  references : ∀ name symbol, t.references.lookup name = some symbol ↔
    Registered calls (.reference name symbol)
  nodup : t.symbols.Nodup
  pointed : ∀ name symbol, t.references.lookup name = some symbol → symbol ∈ t.symbols

theorem follows_empty : Follows {} [] := by
  refine ⟨fun name => ?_, fun name symbol => ?_, List.nodup_nil, fun name symbol h => ?_⟩
  · simp [not_registered_nil]
  · simp [not_registered_nil]
  · cases h

theorem lookup_references_concat (t : MappingTypes) (added symbol name : String) :
    (t.references ++ [(added, symbol)]).lookup name =
      (t.references.lookup name).or (if name = added then some symbol else none) := by
  rw [List.lookup_append]
  by_cases h : name = added
  · simp [h]
  · have hne : (name == added) = false := beq_false_of_ne h
    simp [List.lookup_cons, hne, h]

theorem Follows.after (h : Follows (run {} calls) calls) (c : Call) :
    Follows ((run {} calls).after c) (calls ++ [c]) := by
  have hchange := (run {} calls).change_after c
  generalize (run {} calls).after c = t' at hchange
  cases hchange with
  | refused _ hrefused =>
      have hsame (d : Call) : Registered (calls ++ [c]) d ↔ Registered calls d := by
        rw [registered_concat, or_iff_left fun hlast => hrefused hlast.2]
      refine ⟨fun name => ?_, fun name symbol => ?_, h.nodup, h.pointed⟩
      · rw [hsame, h.symbols]
      · rw [hsame, h.references]
  | symbol added haccepts =>
      have hnew := accepts_symbol_iff.mp haccepts
      refine ⟨fun name => ?_, fun name symbol => ?_, ?_, fun name symbol hfound => ?_⟩
      · rw [List.mem_append, List.mem_singleton, registered_concat, h.symbols]
        simp [haccepts]
      · rw [registered_concat, h.references]
        simp
      · exact List.nodup_append.mpr ⟨h.nodup, List.nodup_singleton _, by
          rintro a ha b hb rfl
          obtain rfl := List.mem_singleton.mp hb
          exact hnew ha⟩
      · exact List.mem_append_left _ (h.pointed name symbol hfound)
  | reference added pointed haccepts =>
      obtain ⟨hsymbol, hnew⟩ := accepts_reference_iff.mp haccepts
      refine ⟨fun name => ?_, fun name symbol => ?_, h.nodup, fun name symbol hfound => ?_⟩
      · rw [registered_concat, h.symbols]
        simp
      · rw [lookup_references_concat, registered_concat, ← h.references]
        by_cases hname : name = added
        · subst hname
          simp [hnew, haccepts, eq_comm]
        · simp [hname]
      · rw [lookup_references_concat] at hfound
        by_cases hname : name = added
        · subst hname
          obtain rfl : pointed = symbol := by simpa [hnew] using hfound
          exact hsymbol
        · exact h.pointed name symbol (by simpa [hname] using hfound)

theorem follows_run (calls : List Call) : Follows (run {} calls) calls := by
  induction calls using List.reverseRecOn with
  | nil => exact follows_empty
  | append_singleton calls c ih =>
      rw [run_concat]
      exact ih.after c

/-- What was registered stays registered. -/
theorem Registered.mono {later : List Call} (h : Registered calls c) (hlater : calls <+: later) :
    Registered later c := by
  obtain ⟨before, hbefore, haccepts⟩ := h
  exact ⟨before, hbefore.trans hlater, haccepts⟩

/-- A reference points at one symbol, that of the only call that registered it. -/
theorem Registered.unique {pointed : String} (h : Registered calls (.reference name symbol))
    (h' : Registered calls (.reference name pointed)) : symbol = pointed := by
  have hfollows := follows_run calls
  exact Option.some.inj (((hfollows.references name symbol).mpr h).symm.trans
    ((hfollows.references name pointed).mpr h'))

theorem accepts_symbol_run_iff :
    (run {} calls).Accepts (.symbol name) ↔ ¬ Registered calls (.symbol name) := by
  rw [accepts_symbol_iff, (follows_run calls).symbols]

theorem accepts_reference_run_iff : (run {} calls).Accepts (.reference name symbol) ↔
    Registered calls (.symbol symbol) ∧
      ∀ pointed, ¬ Registered calls (.reference name pointed) := by
  have hfollows := follows_run calls
  rw [accepts_reference_iff, hfollows.symbols, Option.eq_none_iff_forall_ne_some]
  refine and_congr_right fun _ => forall_congr' fun pointed => ?_
  exact not_congr (hfollows.references name pointed)

theorem mem_sortedSymbols_run :
    name ∈ (run {} calls).sortedSymbols ↔ Registered calls (.symbol name) := by
  rw [sortedSymbols, List.mem_mergeSort, (follows_run calls).symbols]

/-! ### What the calls alone tell -/

/-- The first call for a symbol registers it. -/
theorem registered_symbol_iff : Registered calls (.symbol name) ↔ .symbol name ∈ calls := by
  constructor
  · rintro ⟨before, hbefore, -⟩
    exact hbefore.subset (List.mem_append_right before (List.mem_singleton_self _))
  · intro hmem
    obtain ⟨before, rest, hcalls⟩ := List.append_of_mem hmem
    have hbefore : before ++ [.symbol name] <+: calls := ⟨rest, by simp [hcalls]⟩
    by_cases hknown : Registered before (.symbol name)
    · exact hknown.mono ((List.prefix_append before _).trans hbefore)
    · exact ⟨before, hbefore, accepts_symbol_run_iff.mpr hknown⟩

/-- The first call for a reference whose symbol was asked for before it registers the
reference, whichever calls for it came too early. -/
theorem registered_reference_iff : Registered calls (.reference name symbol) ↔
    ∃ before, before ++ [.reference name symbol] <+: calls ∧ .symbol symbol ∈ before ∧
      ∀ earlier pointed, earlier ++ [.reference name pointed] <+: before →
        .symbol pointed ∉ earlier := by
  refine exists_congr fun before => and_congr_right fun _ => ?_
  rw [accepts_reference_run_iff, registered_symbol_iff]
  refine and_congr_right fun _ => ⟨?_, ?_⟩
  · intro hnew earlier pointed hearlier hasked
    -- Had it been refused then, it would have been registered even earlier.
    by_cases hknown : ∃ other, Registered earlier (.reference name other)
    · obtain ⟨other, hother⟩ := hknown
      exact hnew other (hother.mono ((List.prefix_append earlier _).trans hearlier))
    · refine hnew pointed ⟨earlier, hearlier, accepts_reference_run_iff.mpr ⟨?_, ?_⟩⟩
      · exact registered_symbol_iff.mpr hasked
      · exact fun other hother => hknown ⟨other, hother⟩
  · rintro hnew pointed ⟨earlier, hearlier, haccepts⟩
    exact hnew earlier pointed hearlier
      (registered_symbol_iff.mp (accepts_reference_run_iff.mp haccepts).1)

/-- What the types say after these calls is what the calls have registered. -/
structure Consistent (calls : List Call) : Prop where
  symbol_accepted : ∀ name,
    (run {} calls).Accepts (.symbol name) ↔ ¬ Registered calls (.symbol name)
  symbol_refused : ∀ name, Registered calls (.symbol name) →
    (run {} calls).attempt (.symbol name) = .error (.symbolTypeRegistered name)
  reference_accepted : ∀ name symbol, (run {} calls).Accepts (.reference name symbol) ↔
    Registered calls (.symbol symbol) ∧ ∀ pointed, ¬ Registered calls (.reference name pointed)
  /-- The missing symbol is reported, whether or not the reference is there. -/
  reference_dangling : ∀ name symbol, ¬ Registered calls (.symbol symbol) →
    (run {} calls).attempt (.reference name symbol) = .error (.symbolTypeNotRegistered symbol)
  reference_refused : ∀ name symbol pointed, Registered calls (.symbol symbol) →
    Registered calls (.reference name pointed) →
    (run {} calls).attempt (.reference name symbol) = .error (.referenceTypeRegistered name)
  refused_unchanged : ∀ c, ¬ (run {} calls).Accepts c → run {} (calls ++ [c]) = run {} calls
  points_at_registered : ∀ name symbol, (run {} calls).referenced? name = some symbol →
    Registered calls (.symbol symbol)
  referenced : ∀ name symbol, (run {} calls).referenced? name = some symbol ↔
    Registered calls (.reference name symbol)
  lasting : ∀ later name symbol, (run {} calls).referenced? name = some symbol →
    (run {} (calls ++ later)).referenced? name = some symbol
  increasing : (run {} calls).sortedSymbols.Pairwise (· < ·)
  listed : ∀ name, name ∈ (run {} calls).sortedSymbols ↔ Registered calls (.symbol name)

theorem consistent_run (calls : List Call) : Consistent calls := by
  have hfollows := follows_run calls
  have hknown {name symbol : String} (h : Registered calls (.reference name symbol)) :
      ((run {} calls).references.lookup name).isSome :=
    Option.isSome_of_eq_some ((hfollows.references name symbol).mpr h)
  constructor
  case symbol_accepted => exact fun _ => accepts_symbol_run_iff
  case symbol_refused =>
    exact fun name h => attempt_symbol_known ((hfollows.symbols name).mpr h)
  case reference_accepted => exact fun _ _ => accepts_reference_run_iff
  case reference_dangling =>
    exact fun name symbol h => attempt_reference_dangling (mt (hfollows.symbols symbol).mp h)
  case reference_refused =>
    intro name symbol pointed hsymbol hreference
    exact attempt_reference_known ((hfollows.symbols symbol).mpr hsymbol) (hknown hreference)
  case refused_unchanged =>
    intro c hrefused
    rw [run_concat, after_of_refused hrefused]
  case points_at_registered =>
    exact fun name symbol h => (hfollows.symbols symbol).mp (hfollows.pointed name symbol h)
  case referenced => exact hfollows.references
  case lasting =>
    intro later name symbol h
    have hregistered := (hfollows.references name symbol).mp h
    exact ((follows_run (calls ++ later)).references name symbol).mpr
      (hregistered.mono (List.prefix_append calls later))
  case increasing => exact pairwise_lt_sorted hfollows.nodup
  case listed => exact fun _ => mem_sortedSymbols_run

end MappingTypes

open Script Simulation

namespace Simulation

variable {may : Pool.Move → Prop} {s s' : Stores}

/-- An act changes the types by a call, or not at all. -/
theorem Act.types_cases (h : Act may s s') :
    s'.mapper.types = s.mapper.types ∨ ∃ c, s'.mapper.types = s.mapper.types.after c := by
  cases h with
  | symbol name types h =>
      right
      refine ⟨.symbol name, ?_⟩
      simp only [MappingTypes.after, MappingTypes.attempt, h]
  | reference name symbol types h =>
      right
      refine ⟨.reference name symbol, ?_⟩
      simp only [MappingTypes.after, MappingTypes.attempt, h]
  | _ => exact Or.inl rfl

/-- The types go through a list of calls. -/
theorem Acts.types (h : Acts may s s') : ∃ calls, s'.mapper.types = s.mapper.types.run calls := by
  induction h with
  | refl => exact ⟨[], rfl⟩
  | tail _ hlast ih =>
      obtain ⟨calls, hcalls⟩ := ih
      rcases hlast.types_cases with hsame | ⟨c, hc⟩
      · exact ⟨calls, hsame.trans hcalls⟩
      · exact ⟨calls ++ [c], by rw [hc, hcalls, MappingTypes.run_concat]⟩

/-- The step that makes a call. -/
def registration : MappingTypes.Call → Step
  | .symbol name => .feature (.symbol name)
  | .reference name symbol => .feature (.reference name symbol)

/-- The step is carried out at once, and shows what the types answer. -/
theorem perform_registration (context : Context) (c : MappingTypes.Call) (w : World) :
    (Sim.perform context (registration c)).run w =
      match w.mapper.types.attempt c with
      | .ok types => (Sim.answer (Sim.showMapping (.ok ())),
          { w with mapper := { w.mapper with types } })
      | .error e => (Sim.answer (Sim.showMapping (.error e)), w) := by
  have hset (change : MappingTypes → Except MappingError MappingTypes) :
      (Sim.setTypes change).run w =
        match change w.mapper.types with
        | .ok types => (Sim.answer (Sim.showMapping (.ok ())),
            { w with mapper := { w.mapper with types } })
        | .error e => (Sim.answer (Sim.showMapping (.error e)), w) := by
    have hget : (get : Sim World).run w = (w, w) := rfl
    simp only [Sim.setTypes, Sim.run_bind, hget]
    cases change w.mapper.types <;> rfl
  cases c with
  | symbol name => exact hset (·.addSymbol name)
  | reference name symbol => exact hset (·.addReference name symbol)

end Simulation

namespace Scenario

variable {s : Scenario} {w w' : World}

/-- Nothing was registered when the system starts. -/
theorem mapper_start (s : Scenario) : s.start.mapper = {} := by
  rw [start]
  cases s.parser <;> rfl

/-- The types of every world have come to what they are by calls. -/
theorem Leads.types (h : Leads s.start w) :
    ∃ calls, w.mapper.types = MappingTypes.run {} calls := by
  obtain ⟨calls, hcalls⟩ := (h.turns setUp_start.inStep).acts.types
  refine ⟨calls, ?_⟩
  have hstart : s.start.stores.mapper.types = {} := congrArg Mapper.types (mapper_start s)
  rw [← hstart]
  exact hcalls

/-- As a world goes on, its types go on by calls. -/
theorem Leads.types_onward (h : Leads s.start w) (h' : Leads w w') :
    ∃ later, w'.mapper.types = w.mapper.types.run later :=
  (h'.turns (h.turns setUp_start.inStep).inStep).acts.types

/-- Symbols and references. However the calls for them come one after another, and whichever
of them were refused, a symbol is accepted unless it was before, a reference is accepted if
its symbol was before and it was not, and the types are what the accepted calls have made of
them. -/
theorem types_follow_registrations (calls : List MappingTypes.Call) :
    MappingTypes.Consistent calls ∧
    ∀ (s : Scenario) (w : World), Leads s.start w →
      (∃ made, w.mapper.types = MappingTypes.run {} made ∧
        ∀ w', Leads w w' → ∃ later, w'.mapper.types = MappingTypes.run {} (made ++ later)) ∧
      ∀ context c, (Sim.perform context (registration c)).run w =
        match w.mapper.types.attempt c with
        | .ok types => (Sim.answer (Sim.showMapping (.ok ())),
            { w with mapper := { w.mapper with types } })
        | .error e => (Sim.answer (Sim.showMapping (.error e)), w) := by
  refine ⟨MappingTypes.consistent_run calls, fun s w h => ⟨?_, fun context c => ?_⟩⟩
  · obtain ⟨made, hmade⟩ := h.types
    refine ⟨made, hmade, fun w' h' => ?_⟩
    obtain ⟨later, hlater⟩ := h.types_onward h'
    exact ⟨later, by rw [hlater, hmade, MappingTypes.run_append]⟩
  · exact perform_registration context c w

/-- A reference asked for too early, its symbol twice, and the reference twice. -/
def asked : List MappingTypes.Call :=
  [.reference "call" "class", .symbol "class", .symbol "class", .reference "call" "class",
    .reference "call" "class"]

theorem types_follow_registrations_asked :
    (MappingTypes.run {} asked).referenced? "call" = some "class" ∧
    MappingTypes.Registered asked (.reference "call" "class") ∧
    MappingTypes.run {} (asked ++ [.symbol "class"]) = MappingTypes.run {} asked ∧
    ∃ made, (start {}).mapper.types = MappingTypes.run {} made := by
  obtain ⟨hconsistent, hworlds⟩ := types_follow_registrations asked
  obtain ⟨⟨made, hmade, -⟩, -⟩ := hworlds {} (start {}) .refl
  have hpoints : (MappingTypes.run {} asked).referenced? "call" = some "class" := by decide
  have hregistered := (hconsistent.referenced _ _).mp hpoints
  have hsymbol := hconsistent.points_at_registered _ _ hpoints
  refine ⟨hpoints, hregistered, hconsistent.refused_unchanged _ fun haccepts => ?_, made, hmade⟩
  exact (hconsistent.symbol_accepted "class").mp haccepts hsymbol

end Scenario

end EventHub
