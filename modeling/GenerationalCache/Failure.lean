import GenerationalCache.Text.Quoted

/-!
# Failures

A local cache never fails. An operation of a distributed cache fails with a `CacheFailure` when its
provider does, and building a cache fails with a `BuildFailure` when its settings are unusable.
-/

namespace GenerationalCache

/-- Why an operation of a cache failed. -/
inductive CacheFailure where
  /-- The provider could not be opened. -/
  | providerUnavailable (reason : String)
  /-- A call into the open provider failed. -/
  | provider (cause : String)
  /-- A value could not be turned into bytes. -/
  | serialization (cause : String)
  /-- Bytes could not be turned into a value. -/
  | deserialization (cause : String)
  deriving DecidableEq, Repr

namespace CacheFailure

/-- The name of the kind of failure. -/
def kind : CacheFailure → String
  | providerUnavailable _ => "ProviderUnavailable"
  | provider _ => "Provider"
  | serialization _ => "Serialization"
  | deserialization _ => "Deserialization"

/-- What the failure tells a person. -/
def message : CacheFailure → String
  | providerUnavailable reason => "cache provider unavailable: " ++ reason
  | provider cause => "cache provider operation failed: " ++ cause
  | serialization cause => "failed to serialize value: " ++ cause
  | deserialization cause => "failed to deserialize value: " ++ cause

/-- How a failure shows itself. -/
def describe : CacheFailure → String
  | providerUnavailable reason =>
    Text.record "ProviderUnavailable" [("reason", Text.quoted reason)]
  | provider cause => Text.quotedIn "Provider" cause
  | serialization cause => Text.quotedIn "Serialization" cause
  | deserialization cause => Text.quotedIn "Deserialization" cause

/-- The failure of a given kind. -/
def ofKind? (kind text : String) : Option CacheFailure :=
  [providerUnavailable, provider, serialization, deserialization].findSome? fun make =>
    if (make text).kind == kind then some (make text) else none

end CacheFailure

/-- Why a cache could not be built. -/
inductive BuildFailure where
  /-- The configured timeout `value` is no duration. -/
  | invalidTimeout (value reason : String)
  /-- The eviction scheduler could not be started. -/
  | schedulerSpawn (cause : String)
  /-- The configured timeout adds up to one carry more than the longest duration. This is not
  reported as an unusable setting: the call does not return. -/
  | durationOverflow
  deriving DecidableEq, Repr

namespace BuildFailure

/-- What the failure tells a person. -/
def message : BuildFailure → String
  | invalidTimeout value reason => "invalid timeout '" ++ value ++ "': " ++ reason
  | schedulerSpawn cause => "failed to start the eviction scheduler: " ++ cause
  | durationOverflow => "overflow in the whole seconds of a duration"

/-- How a failure shows itself. -/
def describe : BuildFailure → String
  | invalidTimeout value reason =>
    Text.record "InvalidTimeout" [("value", Text.quoted value), ("reason", Text.quoted reason)]
  | schedulerSpawn cause => Text.quotedIn "SchedulerSpawn" cause
  | durationOverflow => "DurationOverflow"

end BuildFailure

end GenerationalCache
