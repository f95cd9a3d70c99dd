import EventHub.Simulation.Wait

/-!
Polling: a computation goes on until it has its result or cannot go on any
further. Every move uses up one unit of fuel; a computation that runs out of
it stays where it is.
-/

namespace EventHub.Simulation.Sim

open EventHub.Script

/-- A registration is given up while other calls, which nobody will answer to,
fill the mailbox. -/
def abandon (broker fill : Nat) (registration : Future .handle) : Sim Unit := do
  let calls ← (List.range fill).mapM fun _ => do
    let t ← ticket
    match ← listing broker (·.call t .services) with
    | .wait w => do
      match ← check w with
      | .pending w => return .wait w
      | .next f => return f
    | f => return f
  drop registration
  calls.forM drop

/-- Whether an alarm ends the wait for a computation. One that has used up what
the task may take does not keep it from looking at the alarm. -/
def rings (alarm : Alarm) (couldTake : Bool) : Sim Bool := do
  if ← isSpent then
    if couldTake then isDue alarm
    else
      defer
      return false
  else if ← isDue alarm then
    spend 1
    return true
  else return false

/-- Goes on as far as possible. -/
def poll : Nat → {a : Shape} → Future a → Sim (Future a)
  | 0, _, f => return f
  | _, _, .done outcome => return .done outcome
  | n + 1, _, .begin b => do poll n (← begin b)
  | n + 1, _, .wait w => do
    match ← check w with
    | .pending w => return .wait w
    | .next f => poll n f
  | n + 1, _, .bind inner frame => do
    match ← poll n inner with
    | .done outcome => poll n (← resume frame outcome)
    | inner => return .bind inner frame
  | n + 1, _, .within alarm inner => do
    let couldTake := !(← isSpent)
    match ← poll n inner with
    | .done (.returned v) => do
      unset alarm
      return .value (some v)
    | .done (.panicked payload) => do
      unset alarm
      return .panic payload
    | inner => do
      if ← rings alarm couldTake then
        drop inner
        unset alarm
        return .value none
      else return .within alarm inner
  | n + 1, _, .followed first others => do
    match ← poll n first with
    | .done (.returned r) => poll n (Future.map others fun list => r :: list)
    | .done (.panicked payload) => do
      drop others
      return .panic payload
    | first => return .followed first others
  | n + 1, _, .raceClose broker context steps => do
    let started ← steps.mapM fun s => poll n (.begin (.step context s))
    onBroker broker fun b => (b.close, ())
    poll n (started.foldr Future.followed (.value []))
  | n + 1, _, .abandon broker alarm fill inner => do
    match ← poll n inner with
    | .done _ => do
      alarm.forM unset
      return answer (.text "finished")
    | inner =>
      let isOver ←
        match alarm with
        | none => pure true
        | some a => rings a false
      if isOver then
        abandon broker fill inner
        return answer (.text "abandoned")
      else return .abandon broker alarm fill inner

end EventHub.Simulation.Sim
