import GenerationalCache.Counters
import GenerationalCache.Program

/-!
# The public operations

A cache is used through the same operations whether it keeps its entries itself or leaves them to a
provider. What can be said of the operations alone, such as removing a list of keys one by one, is
said here once for both.
-/

namespace GenerationalCache

variable {σ K V : Type}

/-- The operations of one kind of cache. -/
structure Operations (σ K V : Type) : Type 1 where
  /-- The entry of a key, a placeholder on a miss. -/
  lookup : K → Program σ K V (Except CacheFailure (Entry V))
  /-- Stores a value. -/
  insert : K → V → Program σ K V (Except CacheFailure Unit)
  /-- Removes a key and tells whether it was there. -/
  remove : K → Program σ K V (Except CacheFailure Bool)
  /-- Removes every key. -/
  clear : Program σ K V (Except CacheFailure Unit)
  /-- Rotates the generations once, as the scheduler does. -/
  evictStale : Program σ K V Unit
  /-- Whether the cache holds more keys than it may. -/
  evictionRequired : Program σ K V Bool
  /-- The sizes of the generations, all zero where there are none. -/
  sizes : σ → Sizes
  /-- The generation of a key, where there are generations. -/
  generationOf? : σ → K → Option Generation
  /-- The counters. -/
  counters : σ → Counters
  /-- Whether a provider keeps the entries. -/
  distributed : Bool
  /-- Whether that provider is open. -/
  connected : σ → Bool

namespace Operations

/-- The value under a key. -/
def get (ops : Operations σ K V) (k : K) : Program σ K V (Except CacheFailure (Option V)) := do
  let found ← ops.lookup k
  return found.map Entry.value

/-- Removes keys one after the other, up to the first failure, and adds the number of those that were
present to `count`. -/
def removeCounting (ops : Operations σ K V) :
    List K → Nat → Program σ K V (Except CacheFailure Nat)
  | [], count => .done (.ok count)
  | k :: ks, count => do
    match ← ops.remove k with
    | .error failure => return .error failure
    | .ok present => removeCounting ops ks (if present then count + 1 else count)

/-- Removes keys one after the other and counts those that were present. A failure ends it; what was
removed before stays removed. -/
def removeAll (ops : Operations σ K V) (keys : List K) :
    Program σ K V (Except CacheFailure Nat) :=
  ops.removeCounting keys 0

end Operations

end GenerationalCache
