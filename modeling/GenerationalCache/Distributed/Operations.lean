import GenerationalCache.Distributed.Serializer
import GenerationalCache.Operations

/-!
# The operations of a distributed cache

A distributed cache leaves storing and evicting to a provider. The provider is opened by the first
operation that needs it, and asked to report its entry changes. The handle is in place before the
provider is asked to report, because the provider may report at once and a listener may then call
back into the cache; such a call finds the handle and does not open anything again. If the provider
refuses, the handle is taken back and the next operation starts over.

An operation fails exactly when opening, registering, or its own call of the provider fails.
-/

namespace GenerationalCache

/-- The state of a cache that leaves its entries to a provider. -/
structure Connection where
  /-- The open provider. -/
  handle : Option Handle := none
  /-- What it has counted. -/
  counters : Counters := {}
  /-- The identity of the next entry it makes. -/
  nextId : Nat := 0
  deriving DecidableEq, Repr

namespace Connection

variable {K V : Type}

/-- Changes the counters. -/
def count (f : Counters → Counters) : Program Connection K V Unit :=
  .update fun c => { c with counters := f c.counters }

/-- Makes an entry of a value, or a placeholder, and counts the lookup that asked for it. -/
def makeEntry (value : Option V) (c : Connection) : Entry V × Connection :=
  (⟨c.nextId, value⟩,
   { c with counters := c.counters.lookedUp value.isSome, nextId := c.nextId + 1 })

/-- The open provider, opening it and asking it to report if necessary. -/
def connect (listeners : Nat) : Program Connection K V (Except CacheFailure Handle) := do
  match ← .read Connection.handle with
  | some handle => return .ok handle
  | none =>
    match ← .perform .openProvider with
    | .error failure =>
      .logAll [.openFailed failure]
      return .error failure
    | .ok handle =>
      .update fun c => { c with handle := some handle }
      match ← .perform (.register handle) with
      | .error failure =>
        .logAll [.registrationFailed failure]
        .update fun c => { c with handle := none }
        return .error failure
      | .ok () =>
        .logAll [.connected listeners]
        return .ok handle

/-- Looks a key up. Bytes that hold no value are a miss. -/
def lookupOp (s : Serializer V) (listeners : Nat) (k : K) :
    Program Connection K V (Except CacheFailure (Entry V)) := do
  match ← connect listeners with
  | .error failure => return .error failure
  | .ok handle =>
    match ← .perform (.get handle k) with
    | .error failure => return .error failure
    | .ok bytes =>
      let (value, log) := s.decode bytes
      .logAll (.lookedUp bytes.isSome :: log)
      let entry ← .access (makeEntry value)
      return .ok entry

/-- Stores a value. A value without bytes is given up, and the caller computes it again on the next
miss. -/
def insertOp (s : Serializer V) (listeners : Nat) (k : K) (v : V) :
    Program Connection K V (Except CacheFailure Unit) := do
  match ← connect listeners with
  | .error failure => return .error failure
  | .ok handle =>
    let (bytes, log) := s.encode v
    .logAll log
    match bytes with
    | none =>
      .logAll [.writeDropped]
      return .ok ()
    | some bytes =>
      match ← .perform (.put handle k bytes) with
      | .error failure => return .error failure
      | .ok () =>
        count Counters.stored
        return .ok ()

/-- Removes a key and tells whether it was there. -/
def removeOp (listeners : Nat) (k : K) :
    Program Connection K V (Except CacheFailure Bool) := do
  match ← connect listeners with
  | .error failure => return .error failure
  | .ok handle =>
    match ← .perform (.remove handle k) with
    | .error failure => return .error failure
    | .ok present =>
      if present then count fun c => c.invalidated 1
      return .ok present

/-- Removes every key. -/
def clearOp (listeners : Nat) : Program Connection K V (Except CacheFailure Unit) := do
  match ← connect listeners with
  | .error failure => return .error failure
  | .ok handle => .perform (.removeAll handle)

/-- The operations of a distributed cache with this many listeners. -/
def operations (s : Serializer V) (listeners : Nat) : Operations Connection K V where
  lookup := lookupOp s listeners
  insert := insertOp s listeners
  remove := removeOp listeners
  clear := clearOp listeners
  evictStale := .done ()
  evictionRequired := .done false
  sizes _ := ⟨0, 0, 0⟩
  generationOf? _ _ := none
  counters c := c.counters
  distributed := true
  connected c := c.handle.isSome

end Connection

end GenerationalCache
