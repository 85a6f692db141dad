import GenerationalCache.Counters
import GenerationalCache.Delivery
import GenerationalCache.Tables

/-!
# The local cache and its critical sections

A local cache keeps its entries in generation tables of its own. Each operation has one critical
section: a function from the cache to the changed cache and an account of what happened. The account
is what the listeners and the log are told afterwards, when the tables may already be changing
again.
-/

namespace GenerationalCache

variable {K V : Type} [Ord K]

/-- The state of a cache that keeps its own entries. -/
structure LocalCache (K V : Type) [Ord K] where
  /-- How many keys it may hold. -/
  limit : EntryLimit
  /-- Its entries. -/
  tables : Tables K V := Tables.empty
  /-- What it has counted. -/
  counters : Counters := {}
  /-- The identity of the next entry it makes. -/
  nextId : Nat := 0

/-- What an insert did: the rotations that made room, and the value it displaced. -/
structure Insertion (V : Type) where
  /-- The rotations, in order. -/
  rotations : List (Rotation V)
  /-- The resolved value that the key had until then and that no rotation dropped. -/
  displaced : Option V
  deriving Repr

/-- The batch of the values that a rotation dropped. -/
def Rotation.batches {V : Type} (r : Rotation V) (reason : Reason) : List (Batch V) :=
  Batch.ofValues r.victims reason

/-- The batches of an insert: what each rotation dropped, then the displaced value. -/
def Insertion.batches {V : Type} (i : Insertion V) : List (Batch V) :=
  i.rotations.flatMap (·.batches .capacity) ++ Batch.ofValues i.displaced.toList .replaced

namespace LocalCache

/-- Finds the entry of a key, or reserves a placeholder for it. -/
def lookup (c : LocalCache K V) (k : K) : Entry V × LocalCache K V :=
  let (e, tables) := c.tables.lookup k (.placeholder c.nextId)
  (e, { c with
    tables
    counters := c.counters.lookedUp e.value.isSome
    nextId := c.nextId + 1 })

/-- Counts the rotations that made room. -/
def countRotations (counters : Counters) (rotations : List (Rotation V)) : Counters :=
  rotations.foldl (fun counters r => counters.rotated r.victims.length) counters

/-- Makes room for a key and stores a value under it. -/
def insert (c : LocalCache K V) (k : K) (v : V) : Insertion V × LocalCache K V :=
  let (rotations, roomy) := c.tables.makeRoom c.limit k
  let (previous, tables) := roomy.insert k (.resolved c.nextId v)
  let displaced := previous.bind Entry.value
  let counters := (countRotations c.counters rotations).stored
  ({ rotations, displaced },
   { c with
     tables
     counters := if displaced.isSome then counters.displaced else counters
     nextId := c.nextId + 1 })

/-- Takes a key out and returns its entry. -/
def remove (c : LocalCache K V) (k : K) : Option (Entry V) × LocalCache K V :=
  let (removed, tables) := c.tables.remove k
  (removed, { c with
    tables
    counters := if removed.isSome then c.counters.invalidated 1 else c.counters })

/-- Takes every key out and returns the entries. -/
def clear (c : LocalCache K V) : List (Entry V) × LocalCache K V :=
  let drained := c.tables.entries
  (drained, { c with
    tables := Tables.empty
    counters := c.counters.invalidated drained.length })

/-- Rotates the generations once. -/
def rotate (c : LocalCache K V) : Rotation V × LocalCache K V :=
  let (rotation, tables) := c.tables.rotate
  (rotation, { c with tables, counters := c.counters.rotated rotation.victims.length })

/-- Whether the cache holds more keys than it may. -/
def evictionRequired (c : LocalCache K V) : Bool := c.limit.exceededBy c.tables.size

end LocalCache

end GenerationalCache
