import GenerationalCache.Operations
import GenerationalCache.Subject

/-!
# Authentication results

The same subject is usually found under several keys: a user name, a digest of a credential, a
token. An authentication result is a subject together with every key it was stored under, so that
all of them can be invalidated together. Keys are only ever added to it.
-/

namespace GenerationalCache

/-- A subject with the keys it is cached under, in the order in which they were added. -/
structure AuthResult (K : Type) where
  /-- The subject. -/
  subject : Subject
  /-- The keys, repeats kept. -/
  lookupKeys : List K := []
  deriving DecidableEq

namespace AuthResult

variable {σ K V : Type}

/-- Adds a key. -/
def addLookupKey (r : AuthResult K) (k : K) : AuthResult K :=
  { r with lookupKeys := r.lookupKeys ++ [k] }

/-- Removes every key of the result from a cache, in order, and counts those that were present. The
first failure ends it; keys removed before stay removed. -/
def invalidateIn (r : AuthResult K) (ops : Operations σ K V) :
    Program σ K V (Except CacheFailure Nat) :=
  ops.removeAll r.lookupKeys

/-- How a result shows itself, given how a list of keys does. -/
def describe (r : AuthResult K) (keys : List K → String) : String :=
  Text.record "CacheObject"
    [("subject", r.subject.describe), ("lookup_keys", keys r.lookupKeys)]

end AuthResult

end GenerationalCache
