/-!
# Units of time

The units in which a duration may be written, with all their spellings. A unit of a second or more
is a whole number of seconds. A month is a twelfth of a year, and a year has a quarter of a day more
than 365 days.
-/

namespace GenerationalCache

/-- A unit of time. -/
inductive TimeUnit where
  | nanosecond
  | microsecond
  | millisecond
  | second
  | minute
  | hour
  | day
  | week
  | month
  | year
  deriving DecidableEq, Repr

namespace TimeUnit

/-- The units from the shortest to the longest. -/
def all : List TimeUnit :=
  [nanosecond, microsecond, millisecond, second, minute, hour, day, week, month, year]

/-- How a unit may be written. Capitals matter: `m` is a minute and `M` a month. -/
def spellings : TimeUnit → List String
  | nanosecond => ["nanos", "nsec", "ns"]
  | microsecond => ["usec", "us", "µs"]
  | millisecond => ["millis", "msec", "ms"]
  | second => ["seconds", "second", "secs", "sec", "s"]
  | minute => ["minutes", "minute", "min", "mins", "m"]
  | hour => ["hours", "hour", "hrs", "hr", "h"]
  | day => ["days", "day", "d"]
  | week => ["weeks", "week", "wk", "wks", "w"]
  | month => ["months", "month", "M"]
  | year => ["years", "year", "yr", "yrs", "y"]

/-- The unit with a given spelling. -/
def ofText? (text : String) : Option TimeUnit :=
  all.find? fun u => u.spellings.contains text

/-- How a unit measures: in nanoseconds, or in whole seconds. -/
inductive Measure where
  /-- So many nanoseconds. -/
  | nanos (count : Nat)
  /-- So many seconds. -/
  | secs (count : Nat)
  deriving DecidableEq, Repr

/-- The length of a unit. -/
def measure : TimeUnit → Measure
  | nanosecond => .nanos 1
  | microsecond => .nanos 1000
  | millisecond => .nanos 1000000
  | second => .secs 1
  | minute => .secs 60
  | hour => .secs 3600
  | day => .secs 86400
  | week => .secs 604800
  | month => .secs 2630016
  | year => .secs 31557600

/-- The length in which a fraction of a unit is measured. Fractions of a second and of a minute go
down to nanoseconds, those of longer units to seconds; a nanosecond has none. -/
def fractionMeasure? : TimeUnit → Option Measure
  | nanosecond => none
  | microsecond => some (.nanos 1000)
  | millisecond => some (.nanos 1000000)
  | second => some (.nanos 1000000000)
  | minute => some (.nanos 60000000000)
  | u => some u.measure

end TimeUnit

end GenerationalCache
