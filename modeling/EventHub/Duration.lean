/-!
Spans of time, kept as whole seconds and a remainder in nanoseconds, with the
text in which messages show them.
-/

namespace EventHub

/-- A span of time. The nanoseconds never reach a full second. -/
structure Duration where
  secs : Nat
  nanos : Nat
  nanos_lt : nanos < 1000000000 := by omega
  deriving DecidableEq

namespace Duration

def zero : Duration := { secs := 0, nanos := 0 }

instance : Inhabited Duration := ⟨zero⟩

/-- Nanoseconds beyond a second are carried into the seconds. -/
def ofParts (secs nanos : Nat) : Duration :=
  { secs := secs + nanos / 1000000000
    nanos := nanos % 1000000000
    nanos_lt := Nat.mod_lt _ (by decide) }

def ofMillis (ms : Nat) : Duration :=
  ofParts (ms / 1000) (ms % 1000 * 1000000)

/-- The least number of whole milliseconds that is not shorter. -/
def ceilMillis (d : Duration) : Nat :=
  d.secs * 1000 + (d.nanos + 999999) / 1000000

/-- Milliseconds until a timer set for the span rings. A point in time past the
last one that a clock can name stands for thirty years from now. -/
def timerMillis (d : Duration) : Nat :=
  if d.secs < 9223372036854775807 then d.ceilMillis else 946080000000

private def padZeros (width : Nat) (digits : List Char) : List Char :=
  List.replicate (width - digits.length) '0' ++ digits

private def dropTrailingZeros (digits : List Char) : List Char :=
  (digits.reverse.dropWhile (· == '0')).reverse

/-- A number with `width` decimal places, `part` counting the last place. Zeros
at the end are not written, nor is a point that nothing follows. -/
def decimal (whole part width : Nat) : String :=
  let places := dropTrailingZeros (padZeros width (toString part).toList)
  toString whole ++ (if places.isEmpty then "" else "." ++ String.ofList places)

/-- The largest unit of which the span holds at least one, nanoseconds if it
is empty. -/
def text (d : Duration) : String :=
  if d.secs > 0 then decimal d.secs d.nanos 9 ++ "s"
  else if d.nanos ≥ 1000000 then decimal (d.nanos / 1000000) (d.nanos % 1000000) 6 ++ "ms"
  else if d.nanos ≥ 1000 then decimal (d.nanos / 1000) (d.nanos % 1000) 3 ++ "µs"
  else toString d.nanos ++ "ns"

/-- A span of zero stands for "no limit". -/
def limit? (d : Duration) : Option Duration :=
  if d = zero then none else some d

end Duration

end EventHub
