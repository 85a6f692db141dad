import GenerationalCache.Local.Cache
import GenerationalCache.Operations

/-!
# The operations of a local cache

Each operation runs its critical section and then, with the tables free again, makes the calls that
tell the listeners what left. None of them fails.
-/

namespace GenerationalCache.LocalCache

variable {K V : Type} [Ord K]

/-- Looks a key up. -/
def lookupOp (k : K) : Program (LocalCache K V) K V (Entry V) :=
  .access fun c => c.lookup k

/-- Stores a value and tells the listeners what had to go. -/
def insertOp (listeners : Nat) (k : K) (v : V) : Program (LocalCache K V) K V Unit := do
  let insertion ← .access fun c => c.insert k v
  .logAll (insertion.rotations.map fun r => .rotating r.before)
  .deliver (deliveries listeners insertion.batches)

/-- The batches of a removal. When nobody listens the value is not even asked for. -/
def removalBatches (listeners : Nat) (removed : Option (Entry V)) : List (Batch V) :=
  if listeners = 0 then [] else Batch.ofValues (removed.bind Entry.value).toList .invalidated

/-- Removes a key and tells the listeners its value. -/
def removeOp (listeners : Nat) (k : K) : Program (LocalCache K V) K V Bool := do
  let removed ← .access fun c => c.remove k
  .deliver (deliveries listeners (removalBatches listeners removed))
  return removed.isSome

/-- Removes every key and tells the listeners all values at once. -/
def clearOp (listeners : Nat) : Program (LocalCache K V) K V Unit := do
  let drained ← .access fun c => c.clear
  .deliver (deliveries listeners (Batch.ofValues (Entry.values drained) .invalidated))

/-- Rotates once and tells the listeners what expired. -/
def evictStaleOp (listeners : Nat) : Program (LocalCache K V) K V Unit := do
  let rotation ← .access fun c => c.rotate
  .logAll [.rotating rotation.before]
  .deliver (deliveries listeners (rotation.batches .expired))

/-- The log lines of the question whether eviction is required. -/
def sizeLog (c : LocalCache K V) : List LogEvent :=
  .currentSize c.tables.sizes ::
    match c.limit with
    | .unbounded => []
    | .atMost count _ => if count < c.tables.size then [.limitExceeded c.tables.size count] else []

/-- Tells whether the cache holds more keys than it may, and logs its sizes. -/
def evictionRequiredOp : Program (LocalCache K V) K V Bool := do
  let (required, log) ← .read fun c => (c.evictionRequired, c.sizeLog)
  .logAll log
  return required

/-- The operations of a local cache with this many listeners. -/
def operations (listeners : Nat) : Operations (LocalCache K V) K V where
  lookup k := Except.ok <$> lookupOp k
  insert k v := Except.ok <$> insertOp listeners k v
  remove k := Except.ok <$> removeOp listeners k
  clear := Except.ok <$> clearOp listeners
  evictStale := evictStaleOp listeners
  evictionRequired := evictionRequiredOp
  sizes c := c.tables.sizes
  generationOf? c k := c.tables.generationOf? k
  counters c := c.counters
  distributed := false
  connected _ := false

end GenerationalCache.LocalCache
