/-!
# Counters

A cache counts its lookups, its writes and its sweeps. The counts are words of 64 bits and wrap
around.
-/

namespace GenerationalCache

/-- The events of one cache, counted modulo `2 ^ 64`. -/
structure Counters where
  /-- Lookups that found a resolved value. -/
  hits : UInt64 := 0
  /-- Lookups that found nothing, or only a placeholder. -/
  misses : UInt64 := 0
  /-- Values stored. -/
  inserts : UInt64 := 0
  /-- Stores that displaced a resolved value. -/
  replacements : UInt64 := 0
  /-- Keys removed on request. -/
  invalidations : UInt64 := 0
  /-- Rotations, timed or made to find room. -/
  rotations : UInt64 := 0
  /-- Resolved values dropped by rotations. -/
  evictedByRotation : UInt64 := 0
  deriving DecidableEq, Repr

namespace Counters

/-- Counts a lookup. -/
def lookedUp (c : Counters) (hit : Bool) : Counters :=
  if hit then { c with hits := c.hits + 1 } else { c with misses := c.misses + 1 }

/-- Counts a store. -/
def stored (c : Counters) : Counters := { c with inserts := c.inserts + 1 }

/-- Counts a resolved value that a store displaced. -/
def displaced (c : Counters) : Counters := { c with replacements := c.replacements + 1 }

/-- Counts `n` keys removed on request. -/
def invalidated (c : Counters) (n : Nat) : Counters :=
  { c with invalidations := c.invalidations + UInt64.ofNat n }

/-- Counts a rotation that dropped `n` resolved values. -/
def rotated (c : Counters) (n : Nat) : Counters :=
  { c with
    rotations := c.rotations + 1
    evictedByRotation := c.evictedByRotation + UInt64.ofNat n }

end Counters

end GenerationalCache
