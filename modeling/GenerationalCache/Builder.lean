import GenerationalCache.Config
import GenerationalCache.Failure
import GenerationalCache.Local.Cache
import GenerationalCache.Timing.DurationText

/-!
# Building a cache

A builder collects the settings of a cache, one call after the other, and then makes the cache. The
timeout decides how often the scheduler rotates: every half of it, so that an entry that nobody
touches survives at least one full timeout. A timeout of zero, or one too short to be halved, starts
no scheduler.
-/

namespace GenerationalCache

/-- The settings collected so far. -/
structure Builder where
  /-- How many keys each table is made for. -/
  initialSize : UInt64 := 50
  /-- How many keys the cache may hold; zero and the largest number stand for any number. -/
  entryLimit : UInt64 := 25000
  /-- The timeout that drives the scheduler. -/
  timeout : Option Duration := some .tenMinutes
  /-- How many listeners are registered. -/
  listeners : Nat := 0
  deriving DecidableEq, Repr

namespace Builder

/-- A builder with the default settings. -/
def new : Builder := {}

/-- Sets the size that tables are made for. -/
def withInitialSize (b : Builder) (size : UInt64) : Builder := { b with initialSize := size }

/-- Sets how many keys the cache may hold. -/
def withEntryLimit (b : Builder) (limit : UInt64) : Builder := { b with entryLimit := limit }

/-- Lets the cache hold any number of keys. -/
def unbounded (b : Builder) : Builder :=
  { b with entryLimit := UInt64.ofNat (UInt64.size - 1) }

/-- Sets the timeout; zero means none. -/
def withTimeout (b : Builder) (timeout : Duration) : Builder :=
  { b with timeout := if timeout.total = 0 then none else some timeout }

/-- Does without a scheduler. -/
def withoutTimeout (b : Builder) : Builder := { b with timeout := none }

/-- Registers a listener. -/
def withListener (b : Builder) : Builder := { b with listeners := b.listeners + 1 }

/-- Takes over the settings of a configuration. -/
def withConfig (b : Builder) (config : Config) : Except BuildFailure Builder :=
  match DurationText.read config.timeout with
  | .error .overflow => .error .durationOverflow
  | .error failure => .error (.invalidTimeout config.timeout failure.message)
  | .ok timeout =>
    .ok (withTimeout
      { b with initialSize := config.initialSize, entryLimit := config.maxSize } timeout)

/-- The period of the scheduler in nanoseconds, if one is to run. -/
def schedulerPeriod? (b : Builder) : Option Nat :=
  b.timeout.bind fun timeout => if timeout.half = 0 then none else some timeout.half

/-- Makes a local cache, empty and with nothing counted. -/
def build {K V : Type} [Ord K] (b : Builder) : LocalCache K V :=
  { limit := .ofSize b.entryLimit }

/-- How a builder shows itself. -/
def describe (b : Builder) : String :=
  Text.openRecord "CacheBuilder"
    [("initial_size", toString b.initialSize), ("entry_limit", toString b.entryLimit),
     ("timeout", match b.timeout with
        | none => "None"
        | some timeout => "Some(" ++ timeout.describe ++ ")"),
     ("listeners", toString b.listeners)]

end Builder

end GenerationalCache
