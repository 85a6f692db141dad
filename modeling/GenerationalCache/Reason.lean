/-!
# Why values leave the cache

Every value that leaves the cache leaves for one of four reasons, and the listeners are told which.
-/

namespace GenerationalCache

/-- Why a batch of values left the cache. -/
inductive Reason where
  /-- An insert found the cache at its entry limit and swept the oldest generation. -/
  | capacity
  /-- A timed sweep condemned the values, or the provider let them expire. -/
  | expired
  /-- The values were removed on request. -/
  | invalidated
  /-- An insert put a newer value under the same key. -/
  | replaced
  deriving DecidableEq, Repr, Inhabited

namespace Reason

/-- The four reasons, in the order of their declaration. -/
def all : List Reason := [.capacity, .expired, .invalidated, .replaced]

/-- The name under which a reason is reported. -/
def name : Reason → String
  | capacity => "Capacity"
  | expired => "Expired"
  | invalidated => "Invalidated"
  | replaced => "Replaced"

/-- What a reason tells a person. -/
def explanation : Reason → String
  | capacity => "evicted due to entry limit"
  | expired => "evicted due to expiration"
  | invalidated => "manually invalidated"
  | replaced => "replaced by a newer value"

/-- The reason with a given name. -/
def ofName? (text : String) : Option Reason :=
  all.find? fun r => r.name == text

end Reason

end GenerationalCache
