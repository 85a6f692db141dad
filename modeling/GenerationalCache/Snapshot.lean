import GenerationalCache.Counters
import GenerationalCache.Text.Decimal
import GenerationalCache.Text.Quoted

/-!
# Snapshots of the counters

What a cache shows of its counters at one instant: the counts, the share of lookups that were hits,
and for how long the cache has been up.
-/

namespace GenerationalCache

/-- Counters read at one instant. -/
structure Snapshot where
  /-- The counts. -/
  counters : Counters
  /-- The share of lookups that were hits. -/
  hitRatio : Float
  /-- Whole seconds since the cache was made. -/
  uptimeSecs : UInt64

namespace Snapshot

/-- The share of lookups that were hits, zero before the first lookup. -/
def ratio (hits misses : UInt64) : Float :=
  let lookups := hits + misses
  if lookups = 0 then 0 else hits.toFloat / lookups.toFloat

/-- The snapshot of counters. -/
def of (c : Counters) (uptimeSecs : UInt64) : Snapshot :=
  { counters := c, hitRatio := ratio c.hits c.misses, uptimeSecs }

/-- Whether two snapshots agree in every field, ratios as floating-point numbers: one that is not a
number agrees with nothing. -/
def agrees (a b : Snapshot) : Bool :=
  a.counters == b.counters && a.hitRatio == b.hitRatio && a.uptimeSecs == b.uptimeSecs

/-- How a snapshot shows itself, with a given text for the time the cache has been up. -/
def describeWith (s : Snapshot) (uptime : String) : String :=
  Text.record "MetricsSnapshot"
    [("hits", toString s.counters.hits),
     ("misses", toString s.counters.misses),
     ("hit_ratio", Text.twoPlaces (s.hitRatio * 100) ++ "%"),
     ("inserts", toString s.counters.inserts),
     ("replacements", toString s.counters.replacements),
     ("invalidations", toString s.counters.invalidations),
     ("rotations", toString s.counters.rotations),
     ("evicted_by_rotation", toString s.counters.evictedByRotation),
     ("uptime_secs", uptime)]

/-- How a snapshot shows itself. -/
def describe (s : Snapshot) : String := s.describeWith (toString s.uptimeSecs)

end Snapshot

end GenerationalCache
