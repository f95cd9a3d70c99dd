import EventHub.Proofs.Views.Studio

/-!
How long a call for a view takes. Each of its turns brings it closer to its end, however much
the others do in between: an attempt takes six turns at most, and starts a generator at most
once, and there are three attempts.
-/

namespace EventHub

namespace Generation

variable {P : Type} {w w' : Workspace} {v : Views P} {c c' : Call P}

/-- The turns that this attempt and those after it take at most. -/
def Call.turnsLeft (c : Call P) : Nat :=
  let others := 6 * (maxAttempts - c.generation.attempt)
  match c.stage with
  | .looking .kept => others + 6
  | .looking .generator => others + 5
  | .looking (.entry _) => others + 4
  | .looking (.content ..) => others + 3
  | .rendering .. => others + 2
  | .keeping .. => others + 1
  | .ended _ => 0

/-- How often this attempt and those after it start a generator at most. -/
def Call.rendersLeft (c : Call P) : Nat :=
  let others := maxAttempts - c.generation.attempt
  match c.stage with
  | .looking _ => others + 1
  | .rendering .. | .keeping .. => others
  | .ended _ => 0

def Stage.isRendering : Stage P → Bool
  | .rendering .. => true
  | _ => false

theorem Call.turnsLeft_new (file : EntryId) (viewType : String) :
    (Call.new (P := P) file viewType).turnsLeft = 18 := rfl

theorem Call.rendersLeft_new (file : EntryId) (viewType : String) :
    (Call.new (P := P) file viewType).rendersLeft = maxAttempts := rfl

theorem Call.isEnded_of_turnsLeft (h : c.turnsLeft = 0) : c.stage.IsEnded := by
  obtain ⟨g, stage⟩ := c
  cases stage with
  | looking stage => cases stage <;> simp [turnsLeft] at h
  | rendering | keeping => simp [turnsLeft] at h
  | ended outcome => exact ⟨outcome, rfl⟩

/-- A turn comes closer to the end, or the call is there. -/
theorem Turned.turnsLeft (h : Turned w v c w' c') : c'.turnsLeft ≤ c.turnsLeft - 1 := by
  cases h with
  | overtaken g revision data content _ _ hattempt =>
      simp only [Call.turnsLeft]
      omega
  | _ => simp [Call.turnsLeft]

/-- An attempt that starts a generator uses it up. -/
theorem Turned.rendersLeft (h : Turned w v c w' c') :
    (c'.stage.isRendering.toNat) + c'.rendersLeft ≤ c.rendersLeft := by
  cases h with
  | overtaken g revision data content _ _ hattempt =>
      simp only [Call.rendersLeft, Stage.isRendering, Bool.toNat_false]
      omega
  | begun g generator entry content _ =>
      simp only [Call.rendersLeft, Stage.isRendering, Bool.toNat_true]
      omega
  | _ => simp [Call.rendersLeft, Stage.isRendering]

theorem Call.handOver_turnsLeft (generate : P → Entry → Bytes → Except String Bytes)
    (c : Call P) : (c.handOver generate).turnsLeft = c.turnsLeft := by
  obtain ⟨g, stage⟩ := c
  cases stage <;> rfl

theorem Call.handOver_rendersLeft (generate : P → Entry → Bytes → Except String Bytes)
    (c : Call P) : (c.handOver generate).rendersLeft = c.rendersLeft := by
  obtain ⟨g, stage⟩ := c
  cases stage <;> rfl

end Generation

namespace Studio

open Generation

variable {P : Type}

section

variable (generate : P → Entry → Bytes → Except String Bytes) (n : Nat)

/-- The move is the turn in which the call starts a generator. -/
def startsRendering (s : Studio P) (m : Move P) : Bool :=
  m.isTurn n && (step generate s m).calls[n]?.any (·.stage.isRendering)

/-- How many times the call starts a generator as the moves are made. -/
def renderings : Studio P → List (Move P) → Nat
  | _, [] => 0
  | s, m :: moves => (startsRendering generate n s m).toNat + renderings (step generate s m) moves

end

variable {generate : P → Entry → Bytes → Except String Bytes} {moves later : List (Move P)}
  {n : Nat}

variable (generate) in
theorem turnsLeft_step {s : Studio P} {c : Generation.Call P} (hcall : s.calls[n]? = some c)
    (m : Move P) :
    ∃ c', (step generate s m).calls[n]? = some c' ∧
      c'.turnsLeft ≤ c.turnsLeft - (m.isTurn n).toNat := by
  rcases call_cases generate m hcall with ⟨hm, hsame⟩ | ⟨rfl, hmade⟩ | ⟨job, now, rfl, -, hturned⟩
  · refine ⟨c, hsame, ?_⟩
    rw [hm]
    exact Nat.le_refl _
  · refine ⟨_, hmade, ?_⟩
    rw [c.handOver_turnsLeft]
    exact Nat.le_refl _
  · have hturn := (c.turned s.workspace s.views job now).turnsLeft
    have hm : (Move.turn (P := P) n job now).isTurn n = true := decide_eq_true rfl
    refine ⟨_, hturned, ?_⟩
    rw [hm]
    exact hturn

/-- How often the call can still start a generator, if it was made or if it is not yet. -/
def rendersLeft (s : Studio P) (n : Nat) : Nat :=
  s.calls[n]?.elim maxAttempts Generation.Call.rendersLeft

variable (generate) in
theorem rendersLeft_step (s : Studio P) (n : Nat) (m : Move P) :
    (startsRendering generate n s m).toNat + (step generate s m).rendersLeft n ≤
      s.rendersLeft n := by
  rw [startsRendering, rendersLeft, rendersLeft]
  cases hcall : s.calls[n]? with
  | none =>
      rcases newCall_cases generate m hcall with hnone | ⟨file, viewType, rfl, hnew⟩
      · simp [hnone]
      · rw [hnew]
        simp [Move.isTurn, Generation.Call.rendersLeft_new]
  | some c =>
      rcases call_cases generate m hcall with
        ⟨hm, hsame⟩ | ⟨rfl, hmade⟩ | ⟨job, now, rfl, -, hturned⟩
      · simp [hm, hsame]
      · rw [hmade]
        simp [Move.isTurn, c.handOver_rendersLeft]
      · have hturn := (c.turned s.workspace s.views job now).rendersLeft
        rw [hturned]
        simpa [Move.isTurn] using hturn

theorem renderings_le (s : Studio P) (n : Nat) (moves : List (Move P)) :
    renderings generate n s moves ≤ s.rendersLeft n := by
  induction moves generalizing s with
  | nil => exact Nat.zero_le _
  | cons m moves ih =>
      have hstep := rendersLeft_step generate s n m
      have hrest := ih (step generate s m)
      rw [renderings]
      omega

theorem turnsLeft_onward {c : Generation.Call P} (hcall : (run generate moves).calls[n]? = some c)
    (later : List (Move P)) :
    ∃ c', (run generate (moves ++ later)).calls[n]? = some c' ∧
      c'.turnsLeft ≤ c.turnsLeft - later.countP (Move.isTurn n) := by
  induction later using List.reverseRecOn with
  | nil =>
      rw [List.append_nil]
      exact ⟨c, hcall, Nat.le_refl _⟩
  | append_singleton later m ih =>
      obtain ⟨c', hcall', hle⟩ := ih
      obtain ⟨c'', hcall'', hle'⟩ := turnsLeft_step generate hcall' m
      rw [← List.append_assoc, run_concat, List.countP_append, List.countP_singleton]
      refine ⟨c'', hcall'', ?_⟩
      cases hm : m.isTurn n with
      | false =>
          rw [hm, Bool.toNat_false] at hle'
          simp only [Bool.false_eq_true, if_false]
          omega
      | true =>
          rw [hm, Bool.toNat_true] at hle'
          simp only [if_true]
          omega

/-- A call that has taken as many turns as it had left is over. -/
theorem ended_of_turns {c : Generation.Call P} (hcall : (run generate moves).calls[n]? = some c)
    (hturns : c.turnsLeft ≤ later.countP (Move.isTurn n)) :
    ∃ c', (run generate (moves ++ later)).calls[n]? = some c' ∧ c'.stage.IsEnded := by
  obtain ⟨c', hcall', hle⟩ := turnsLeft_onward hcall later
  exact ⟨c', hcall', Generation.Call.isEnded_of_turnsLeft (by omega)⟩

end Studio

end EventHub
