import GenerationalCache.Failure
import GenerationalCache.Tables

/-!
# The log

What a cache reports about its own work while it works: sweeps, sizes, the state of its provider,
and values that could not cross the boundary to it. Every event has a level, a fixed message and
named fields.
-/

namespace GenerationalCache

/-- How much an event matters. -/
inductive LogLevel where
  | debug
  | info
  | error
  deriving DecidableEq, Repr

/-- The name under which a level is reported. -/
def LogLevel.name : LogLevel → String
  | debug => "DEBUG"
  | info => "INFO"
  | error => "ERROR"

/-- One line of the log. -/
inductive LogEvent where
  /-- A rotation is about to run on tables of these sizes. -/
  | rotating (before : Sizes)
  /-- The sizes at the moment when somebody asked whether eviction is required. -/
  | currentSize (sizes : Sizes)
  /-- The cache holds more keys than it may. -/
  | limitExceeded (size limit : Nat)
  /-- The provider could not be opened. -/
  | openFailed (failure : CacheFailure)
  /-- The provider is open but refused the cache as a listener. -/
  | registrationFailed (failure : CacheFailure)
  /-- The provider is open and reports to the cache, which has this many listeners of its own. -/
  | connected (listeners : Nat)
  /-- The provider answered a lookup, with bytes or without. -/
  | lookedUp (hit : Bool)
  /-- A write was given up because its value has no bytes. -/
  | writeDropped
  /-- The provider says that it stored this many new entries. -/
  | created (count : Nat)
  /-- The provider says that it overwrote this many entries. -/
  | updated (count : Nat)
  /-- A value could not be turned into bytes. -/
  | serializationFailed (failure : CacheFailure)
  /-- This many bytes could not be turned into a value. -/
  | deserializationFailed (failure : CacheFailure) (length : Nat)
  deriving DecidableEq, Repr

namespace LogEvent

/-- How much the event matters. -/
def level : LogEvent → LogLevel
  | connected _ => .info
  | openFailed _ | registrationFailed _ | serializationFailed _ | deserializationFailed _ _ => .error
  | _ => .debug

/-- The fixed text of the event. -/
def message : LogEvent → String
  | rotating _ => "Rotating cache generations"
  | currentSize _ => "Current cache size"
  | limitExceeded _ _ => "Cache size is greater than the cache limit"
  | openFailed _ => "Unable to open the cache provider"
  | registrationFailed _ => "Unable to register the eviction event adapter"
  | connected _ => "Opened cache provider and registered eviction event adapter"
  | lookedUp _ => "Distributed cache lookup"
  | writeDropped => "Dropping cache write for a value that could not be serialized"
  | created _ => "Cache provider entries created"
  | updated _ => "Cache provider entries updated"
  | serializationFailed _ => "Error serializing cache value"
  | deserializationFailed _ _ => "Error deserializing cache value"

/-- The fields that show table sizes. -/
def sizeFields (s : Sizes) : List (String × String) :=
  [("size", toString s.total), ("primary", toString s.primary),
   ("secondary", toString s.secondary), ("tertiary", toString s.tertiary)]

/-- The named fields of the event, as text. -/
def fields : LogEvent → List (String × String)
  | rotating sizes | currentSize sizes => sizeFields sizes
  | limitExceeded size limit => [("size", toString size), ("entry_limit", toString limit)]
  | openFailed failure | registrationFailed failure | serializationFailed failure =>
    [("error", failure.message)]
  | connected listeners => [("listeners", toString listeners)]
  | lookedUp hit => [("hit", if hit then "true" else "false")]
  | writeDropped => []
  | created count | updated count => [("count", toString count)]
  | deserializationFailed failure length =>
    [("error", failure.message), ("len", toString length)]

end LogEvent

end GenerationalCache
