import Smsc.Text.Numeral

/-!
# Smsc.Time — durations and instants

* `Duration`: a length of time, to the nanosecond;
* `Duration.text`: its form inside messages, in the largest unit of which it holds at least one;
* `Instant`: a reading of the monotonic clock.
-/

namespace Smsc

/-- A length of time, in nanoseconds. -/
structure Duration where
  nanos : Nat
  deriving DecidableEq, Repr, Inhabited

/-- A reading of the monotonic clock, in nanoseconds. -/
abbrev Instant := Nat

namespace Duration

def ofSeconds (n : Nat) : Duration := ⟨n * 1000000000⟩

def ofMillis (n : Nat) : Duration := ⟨n * 1000000⟩

/-- Whole seconds in the duration. -/
def seconds (d : Duration) : Nat := d.nanos / 1000000000

/-- Whole milliseconds in the duration. -/
def millis (d : Duration) : Nat := d.nanos / 1000000

/-- The time from `earlier` to `later`, zero if the clock has not moved on. -/
def between (earlier later : Instant) : Duration := ⟨later - earlier⟩

/-- The duration in the largest of s, ms, µs and ns in which it is at least one. -/
def text (d : Duration) : String :=
  if 1000000000 ≤ d.nanos then Numeral.fixedPoint 9 d.nanos ++ "s"
  else if 1000000 ≤ d.nanos then Numeral.fixedPoint 6 d.nanos ++ "ms"
  else if 1000 ≤ d.nanos then Numeral.fixedPoint 3 d.nanos ++ "µs"
  else Numeral.fixedPoint 0 d.nanos ++ "ns"

/-- Seconds, a point, and nine digits of nanoseconds. -/
def exactText (d : Duration) : String :=
  toString d.seconds ++ "." ++ String.ofList (Numeral.padded 10 9 (d.nanos % 1000000000))

end Duration

end Smsc
