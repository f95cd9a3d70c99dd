import Mathlib.Data.List.Induction
import EventHub.Proofs.Workspace.Request
import EventHub.Workspace.Export

/-!
An export among what goes on around it. It takes its turns one at a time. What its writer answers
is left open, as is what others ask of the workspace between two turns. What has passed between
the export and its writer is kept in order: from it can be read what the writer has taken, and
where the export stands.
-/

namespace EventHub

/-- What an export has asked of its writer, with the answer. -/
inductive Exchange where
  | write (offered : Bytes) (answer : Except String Nat)
  | flush (answer : Except String Unit)

namespace Exchange

/-- The bytes that the writer takes. A number beyond what it was offered stands for all of it. -/
def taken : Exchange → Bytes
  | .write offered (.ok n) => offered.take n
  | _ => []

/-- Why writing cannot go on, if it cannot. -/
def failure? : Exchange → Option String
  | .write _ (.error reason) => some reason
  | .write _ (.ok 0) => some "write zero"
  | .flush (.error reason) => some reason
  | _ => none

/-- Where writing cannot go on, nothing was taken. -/
theorem taken_eq_nil {x : Exchange} {reason : String} (h : x.failure? = some reason) :
    x.taken = [] := by
  cases x with
  | write offered answer =>
      cases answer with
      | error reason => rfl
      | ok n =>
          cases n with
          | zero => rfl
          | succ n => cases h
  | flush answer => rfl

end Exchange

/-- The bytes that a writer has taken by these exchanges. -/
def takenIn (exchanges : List Exchange) : Bytes := exchanges.flatMap Exchange.taken

theorem takenIn_concat (exchanges : List Exchange) (x : Exchange) :
    takenIn (exchanges ++ [x]) = takenIn exchanges ++ x.taken := by
  simp [takenIn]

namespace Export

theorem source_turn (e : Export) (w : Workspace) (answer : Except String Nat) :
    (e.turn w answer).source = e.source := by
  rw [turn]
  split
  · split <;> rfl
  · rfl
  · split <;> rfl
  · rfl

theorem stage_of_result? {e : Export} {result : Except WorkspaceError (Option Nat)}
    (h : e.result? = some result) : e.stage = .ended result := by
  rw [result?] at h
  split at h
  · rename_i ended hstage
    rw [hstage, Option.some.inj h]
  · cases h

/-- What an export asks of its writer in a turn, if it asks for anything. -/
def exchange? (e : Export) (answer : Except String Nat) : Option Exchange :=
  match e.stage with
  | .writing _ rest => some (.write rest answer)
  | .flushing _ => some (.flush (answer.map fun _ => ()))
  | .reading | .ended _ => none

/-- By these writes, of all that was left each, a writer has taken everything before `rest`. -/
inductive Takes (data : Bytes) : List Exchange → Bytes → Prop
  | nothing : Takes data [] data
  | more {exchanges : List Exchange} {rest : Bytes} {n : Nat} (before : Takes data exchanges rest)
      (left : rest ≠ []) (some : 0 < n) :
      Takes data (exchanges ++ [.write rest (.ok n)]) (rest.drop n)

/-- Where an export that has read these data stands after these exchanges. -/
inductive Stands (count : Option Nat) (data : Bytes) : Stage → List Exchange → Prop
  | writing {exchanges : List Exchange} {rest : Bytes} (takes : Takes data exchanges rest)
      (left : rest ≠ []) : Stands count data (.writing data rest) exchanges
  | flushing {exchanges : List Exchange} (takes : Takes data exchanges []) :
      Stands count data (.flushing data) exchanges
  | stuck {exchanges : List Exchange} {rest : Bytes} {answer : Except String Nat} {reason : String}
      (takes : Takes data exchanges rest) (left : rest ≠ [])
      (failure : (Exchange.write rest answer).failure? = some reason) :
      Stands count data (.ended (.error (.write reason))) (exchanges ++ [.write rest answer])
  | unflushed {exchanges : List Exchange} (takes : Takes data exchanges []) (reason : String) :
      Stands count data (.ended (.error (.write reason))) (exchanges ++ [.flush (.error reason)])
  | done {exchanges : List Exchange} (takes : Takes data exchanges []) :
      Stands count data (.ended (.ok count)) (exchanges ++ [.flush (.ok ())])

/-! ### What the exchanges tell -/

namespace Takes

variable {data rest : Bytes} {exchanges : List Exchange}

theorem takenIn_append (h : Takes data exchanges rest) : takenIn exchanges ++ rest = data := by
  induction h with
  | nothing => rfl
  | @more exchanges rest n before left some ih =>
      rw [takenIn_concat, List.append_assoc]
      exact (congrArg _ (List.take_append_drop n rest)).trans ih

/-- A write that does not fail takes a byte at least. -/
theorem length_le (h : Takes data exchanges rest) :
    exchanges.length + rest.length ≤ data.length := by
  induction h with
  | nothing => simp
  | @more exchanges rest n before left some ih =>
      have hpos : 0 < rest.length := List.length_pos_iff.mpr left
      simp only [List.length_append, List.length_singleton, List.length_drop]
      omega

theorem exists_write (h : Takes data exchanges rest) {x : Exchange} (hx : x ∈ exchanges) :
    ∃ offered n, x = .write offered (.ok n) ∧ 0 < n := by
  induction h with
  | nothing => cases hx
  | @more exchanges rest n before left some ih =>
      rcases List.mem_append.mp hx with hold | hnew
      · exact ih hold
      · exact ⟨rest, n, List.mem_singleton.mp hnew, some⟩

theorem failure?_eq_none (h : Takes data exchanges rest) {x : Exchange} (hx : x ∈ exchanges) :
    x.failure? = none := by
  obtain ⟨offered, n, rfl, hpos⟩ := h.exists_write hx
  obtain ⟨n, rfl⟩ := Nat.exists_eq_succ_of_ne_zero (Nat.ne_of_gt hpos)
  rfl

/-- If something has failed after these writes, it is the exchange that came last. -/
theorem exists_failure_iff (h : Takes data exchanges rest) {last : Exchange} {reason : String} :
    (∃ x ∈ exchanges ++ [last], x.failure? = some reason) ↔ last.failure? = some reason := by
  constructor
  · rintro ⟨x, hx, hfailure⟩
    rcases List.mem_append.mp hx with hbefore | hlast
    · cases (h.failure?_eq_none hbefore).symm.trans hfailure
    · rwa [List.mem_singleton.mp hlast] at hfailure
  · exact fun hfailure => ⟨last, by simp, hfailure⟩

theorem not_mem_flush (h : Takes data exchanges rest) (answer : Except String Unit) :
    .flush answer ∉ exchanges := by
  intro hx
  obtain ⟨offered, n, hwrite, -⟩ := h.exists_write hx
  cases hwrite

theorem not_mem_flush_concat (h : Takes data exchanges rest) {last : Exchange}
    {answer : Except String Unit} (hlast : last ≠ .flush answer) :
    .flush answer ∉ exchanges ++ [last] := by
  rw [List.mem_append, List.mem_singleton, not_or]
  exact ⟨h.not_mem_flush answer, hlast.symm⟩

end Takes

/-- Each write among these exchanges offers just what the writer has not taken before. -/
def OffersRest (data : Bytes) (exchanges : List Exchange) : Prop :=
  ∀ before offered answer after, exchanges = before ++ .write offered answer :: after →
    takenIn before ++ offered = data

theorem OffersRest.concat {data : Bytes} {exchanges : List Exchange}
    (h : OffersRest data exchanges) {x : Exchange}
    (hx : ∀ offered answer, x = .write offered answer → takenIn exchanges ++ offered = data) :
    OffersRest data (exchanges ++ [x]) := by
  intro before offered answer after hsplit
  rcases List.eq_nil_or_concat after with rfl | ⟨after, last, rfl⟩
  · obtain ⟨rfl, hlast⟩ := List.append_inj' hsplit rfl
    exact hx offered answer (List.singleton_inj.mp hlast)
  · have hconcat : exchanges ++ [x] = (before ++ .write offered answer :: after) ++ [last] := by
      simp [hsplit]
    obtain ⟨rfl, -⟩ := List.append_inj' hconcat rfl
    exact h before offered answer after rfl

theorem Takes.offersRest {data rest : Bytes} {exchanges : List Exchange}
    (h : Takes data exchanges rest) : OffersRest data exchanges := by
  induction h with
  | nothing =>
      intro before offered answer after hsplit
      simp at hsplit
  | @more exchanges rest n before left some ih =>
      refine ih.concat fun offered answer hx => ?_
      cases hx
      exact before.takenIn_append

namespace Stands

variable {count : Option Nat} {data : Bytes} {stage : Stage} {exchanges : List Exchange}

theorem takenIn_prefix (h : Stands count data stage exchanges) : takenIn exchanges <+: data := by
  have hprefix {exchanges : List Exchange} {rest : Bytes} (takes : Takes data exchanges rest) :
      takenIn exchanges <+: data := ⟨rest, takes.takenIn_append⟩
  cases h with
  | writing takes left => exact hprefix takes
  | flushing takes => exact hprefix takes
  | stuck takes left failure =>
      rw [takenIn_concat, Exchange.taken_eq_nil failure, List.append_nil]
      exact hprefix takes
  | unflushed takes reason =>
      simpa [takenIn_concat, Exchange.taken] using hprefix takes
  | done takes => simpa [takenIn_concat, Exchange.taken] using hprefix takes

theorem offersRest (h : Stands count data stage exchanges) : OffersRest data exchanges := by
  cases h with
  | writing takes left => exact takes.offersRest
  | flushing takes => exact takes.offersRest
  | stuck takes left failure =>
      refine takes.offersRest.concat fun offered answer hx => ?_
      cases hx
      exact takes.takenIn_append
  | unflushed takes reason => exact takes.offersRest.concat fun offered answer hx => nomatch hx
  | done takes => exact takes.offersRest.concat fun offered answer hx => nomatch hx

/-- An export ends well once everything was taken and the writer has flushed it. -/
theorem ended_ok_iff (h : Stands count data stage exchanges) (result : Option Nat) :
    stage = .ended (.ok result) ↔
      result = count ∧ takenIn exchanges = data ∧ .flush (.ok ()) ∈ exchanges := by
  cases h with
  | writing takes left => exact iff_of_false nofun fun h => takes.not_mem_flush _ h.2.2
  | flushing takes => exact iff_of_false nofun fun h => takes.not_mem_flush _ h.2.2
  | stuck takes left failure =>
      refine iff_of_false nofun fun h => takes.not_mem_flush_concat ?_ h.2.2
      nofun
  | unflushed takes reason =>
      refine iff_of_false nofun fun h => takes.not_mem_flush_concat ?_ h.2.2
      nofun
  | @done exchanges takes =>
      have htaken : takenIn (exchanges ++ [.flush (.ok ())]) = data := by
        simpa [takenIn_concat, Exchange.taken] using takes.takenIn_append
      constructor
      · intro hstage
        cases hstage
        exact ⟨rfl, htaken, by simp⟩
      · rintro ⟨rfl, -, -⟩
        rfl

/-- It fails where a write or the flush has failed, and for that reason. -/
theorem ended_error_iff (h : Stands count data stage exchanges) (e : WorkspaceError) :
    stage = .ended (.error e) ↔
      ∃ reason, e = .write reason ∧ ∃ x ∈ exchanges, x.failure? = some reason := by
  have hgoes {exchanges : List Exchange} {rest : Bytes} (takes : Takes data exchanges rest) :
      ¬ ∃ reason, e = .write reason ∧ ∃ x ∈ exchanges, x.failure? = some reason := by
    rintro ⟨reason, -, x, hx, hfailure⟩
    cases (takes.failure?_eq_none hx).symm.trans hfailure
  have hfails {exchanges : List Exchange} {rest : Bytes} (takes : Takes data exchanges rest)
      {last : Exchange} {reason : String} (hlast : last.failure? = some reason) :
      (Stage.ended (.error (.write reason)) = .ended (.error e) ↔ ∃ reason, e = .write reason ∧
        ∃ x ∈ exchanges ++ [last], x.failure? = some reason) := by
    simp only [takes.exists_failure_iff, hlast]
    constructor
    · intro hstage
      cases hstage
      exact ⟨reason, rfl, rfl⟩
    · rintro ⟨other, rfl, hother⟩
      rw [Option.some.inj hother]
  cases h with
  | writing takes left => exact iff_of_false nofun (hgoes takes)
  | flushing takes => exact iff_of_false nofun (hgoes takes)
  | stuck takes left failure => exact hfails takes failure
  | unflushed takes reason => exact hfails takes rfl
  | done takes =>
      refine iff_of_false nofun ?_
      rintro ⟨reason, -, hx⟩
      cases takes.exists_failure_iff.mp hx

/-- An export that has not ended has had an exchange for each byte at most. -/
theorem length_le (h : Stands count data stage exchanges)
    (hstage : ∀ result, stage ≠ .ended result) : exchanges.length ≤ data.length := by
  cases h with
  | writing takes left => exact Nat.le_of_add_right_le takes.length_le
  | flushing takes => exact Nat.le_of_add_right_le takes.length_le
  | stuck | unflushed | done => exact absurd rfl (hstage _)

theorem offering {rest : Bytes} (takes : Takes data exchanges rest) :
    Stands count data (.offering data rest) exchanges := by
  cases rest with
  | nil => exact .flushing takes
  | cons b rest => exact .writing takes (List.cons_ne_nil b rest)

/-- Each turn leads to where the next exchange tells. -/
theorem turn {e : Export} (h : Stands count data e.stage exchanges)
    (hcount : e.source.count data = count) (w : Workspace) (answer : Except String Nat) :
    Stands count data (e.turn w answer).stage (exchanges ++ (e.exchange? answer).toList) := by
  obtain ⟨source, stage⟩ := e
  cases h with
  | @writing _ rest takes left =>
      cases answer with
      | error reason => exact .stuck takes left rfl
      | ok n =>
          cases n with
          | zero => exact .stuck takes left rfl
          | succ n => exact .offering (.more takes left n.succ_pos)
  | flushing takes =>
      cases answer with
      | error reason => exact .unflushed takes reason
      | ok n =>
          subst hcount
          exact .done takes
  | stuck takes left failure =>
      rw [exchange?, Option.toList_none, List.append_nil]
      exact .stuck takes left failure
  | unflushed takes reason =>
      rw [exchange?, Option.toList_none, List.append_nil]
      exact .unflushed takes reason
  | done takes =>
      rw [exchange?, Option.toList_none, List.append_nil]
      exact .done takes

end Stands

end Export

/-! ### Turns and what comes between them -/

/-- A workspace, an export from it, and what has passed between the export and its writer. -/
structure Transfer where
  workspace : Workspace
  outgoing : Export
  exchanges : List Exchange := []

namespace Transfer

inductive Move where
  /-- What others ask of the workspace. -/
  | request (q : Workspace.Request)
  /-- A turn of the export; if it asks something of its writer, it gets this answer. -/
  | turn (answer : Except String Nat)

def Move.isTurn : Move → Bool
  | .turn _ => true
  | .request _ => false

def step (t : Transfer) : Move → Transfer
  | .request q => { t with workspace := t.workspace.after q }
  | .turn answer =>
    { t with
      outgoing := t.outgoing.turn t.workspace answer
      exchanges := t.exchanges ++ (t.outgoing.exchange? answer).toList }

def onward (t : Transfer) (moves : List Move) : Transfer := moves.foldl step t

/-- An export from a workspace, from the time when it is called for. -/
def run (w : Workspace) (source : Export.Source) (moves : List Move) : Transfer :=
  onward { workspace := w, outgoing := { source } } moves

variable {t : Transfer} {moves : List Move}

theorem onward_concat (t : Transfer) (moves : List Move) (m : Move) :
    t.onward (moves ++ [m]) = (t.onward moves).step m :=
  List.foldl_append

theorem onward_append (t : Transfer) (first second : List Move) :
    t.onward (first ++ second) = (t.onward first).onward second :=
  List.foldl_append

theorem source_step (t : Transfer) (m : Move) :
    (t.step m).outgoing.source = t.outgoing.source := by
  cases m with
  | request q => rfl
  | turn answer => exact t.outgoing.source_turn t.workspace answer

theorem source_onward (t : Transfer) (moves : List Move) :
    (t.onward moves).outgoing.source = t.outgoing.source := by
  induction moves using List.reverseRecOn with
  | nil => rfl
  | append_singleton moves m ih => rw [onward_concat, source_step, ih]

/-- An export that has ended takes no part in anything any more. -/
theorem step_of_ended {result : Except WorkspaceError (Option Nat)}
    (h : t.outgoing.stage = .ended result) (m : Move) :
    (t.step m).outgoing.stage = .ended result ∧ (t.step m).exchanges = t.exchanges := by
  cases m with
  | request q => exact ⟨h, rfl⟩
  | turn answer => simp [step, Export.turn, Export.exchange?, h]

theorem onward_of_ended {result : Except WorkspaceError (Option Nat)}
    (h : t.outgoing.stage = .ended result) (moves : List Move) :
    (t.onward moves).outgoing.stage = .ended result ∧
      (t.onward moves).exchanges = t.exchanges := by
  induction moves using List.reverseRecOn with
  | nil => exact ⟨h, rfl⟩
  | append_singleton moves m ih =>
      obtain ⟨hstage, hexchanges⟩ := step_of_ended ih.1 m
      rw [onward_concat]
      exact ⟨hstage, hexchanges.trans ih.2⟩

variable {count : Option Nat} {data : Bytes}

theorem stands_step (h : Export.Stands count data t.outgoing.stage t.exchanges)
    (hcount : t.outgoing.source.count data = count) (m : Move) :
    Export.Stands count data (t.step m).outgoing.stage (t.step m).exchanges := by
  cases m with
  | request q => exact h
  | turn answer => exact h.turn hcount t.workspace answer

theorem stands_onward (h : Export.Stands count data t.outgoing.stage t.exchanges)
    (hcount : t.outgoing.source.count data = count) (moves : List Move) :
    Export.Stands count data (t.onward moves).outgoing.stage (t.onward moves).exchanges := by
  induction moves using List.reverseRecOn with
  | nil => exact h
  | append_singleton moves m ih =>
      rw [onward_concat]
      exact stands_step ih (by rw [source_onward, hcount]) m

/-- Every turn of an export that has read its data and not ended is an exchange. -/
theorem length_exchanges (h : Export.Stands count data t.outgoing.stage t.exchanges)
    (hcount : t.outgoing.source.count data = count) (moves : List Move)
    (hstage : ∀ result, (t.onward moves).outgoing.stage ≠ .ended result) :
    (t.onward moves).exchanges.length = t.exchanges.length + moves.countP Move.isTurn := by
  induction moves using List.reverseRecOn with
  | nil => rfl
  | append_singleton moves m ih =>
      rw [onward_concat] at hstage ⊢
      have hbefore : ∀ result, (t.onward moves).outgoing.stage ≠ .ended result :=
        fun result hended => hstage result (step_of_ended hended m).1
      cases m with
      | request q =>
          rw [List.countP_append]
          exact ih hbefore
      | turn answer =>
          have hstands := stands_onward h hcount moves
          generalize (t.onward moves) = u at ih hbefore hstands ⊢
          have hexchange : ((u.outgoing.exchange? answer).toList).length = 1 := by
            rw [Export.exchange?]
            split
            · rfl
            · rfl
            · rename_i hreading
              rw [hreading] at hstands
              cases hstands
            · rename_i hended
              exact absurd hended (hbefore _)
          rw [step, List.length_append, hexchange, ih hbefore, List.countP_append]
          rfl

end Transfer

end EventHub
