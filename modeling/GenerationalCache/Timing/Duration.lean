/-!
# Durations

A duration is a whole number of seconds that fits 64 bits, and less than a second in nanoseconds.
-/

namespace GenerationalCache

/-- The number of nanoseconds in a second. -/
def nanosPerSec : Nat := 1000000000

/-- A length of time. -/
structure Duration where
  /-- Whole seconds. -/
  secs : Nat
  /-- Nanoseconds beyond them. -/
  nanos : Nat
  /-- The seconds fit a word. -/
  secs_lt : secs < UInt64.size
  /-- The nanoseconds do not make up a second. -/
  nanos_lt : nanos < 1000000000
  deriving DecidableEq, Repr

namespace Duration

/-- No time at all. -/
def zero : Duration := ⟨0, 0, by decide, by decide⟩

/-- Ten minutes. -/
def tenMinutes : Duration := ⟨600, 0, by decide, by decide⟩

/-- The duration of some seconds and any number of nanoseconds, if its seconds fit. -/
def ofParts? (secs nanos : Nat) : Option Duration :=
  if h : secs + nanos / 1000000000 < UInt64.size then
    some ⟨secs + nanos / 1000000000, nanos % 1000000000, h, Nat.mod_lt _ (by decide)⟩
  else none

/-- The duration in nanoseconds. -/
def total (d : Duration) : Nat := d.secs * nanosPerSec + d.nanos

/-- Half of a duration, in whole nanoseconds. -/
def half (d : Duration) : Nat := d.total / 2

/-- A whole part and the decimals of a fraction of `digits` places, without trailing zeros. -/
def decimalText (whole fraction digits : Nat) : String :=
  let places := Nat.toDigits 10 fraction
  let padded := List.replicate (digits - places.length) '0' ++ places
  let kept := (padded.reverse.dropWhile (· == '0')).reverse
  toString whole ++ if kept.isEmpty then "" else "." ++ String.ofList kept

/-- How a duration shows itself: in the largest of seconds, milliseconds, microseconds and nanoseconds
of which it has at least one. -/
def describe (d : Duration) : String :=
  if 0 < d.secs then decimalText d.secs d.nanos 9 ++ "s"
  else if 1000000 ≤ d.nanos then decimalText (d.nanos / 1000000) (d.nanos % 1000000) 6 ++ "ms"
  else if 1000 ≤ d.nanos then decimalText (d.nanos / 1000) (d.nanos % 1000) 3 ++ "µs"
  else toString d.nanos ++ "ns"

end Duration

end GenerationalCache
