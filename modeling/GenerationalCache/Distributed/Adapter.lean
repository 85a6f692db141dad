import GenerationalCache.Distributed.Serializer

/-!
# What a provider reports

A provider owns the entries and reports changes to them in batches of events. Removals and expiries
become batches for the listeners of the cache, one for each batch of events: the payloads that hold a
value, in the provider's order. Events about entries that were stored are only logged.
-/

namespace GenerationalCache

/-- A change to one entry. -/
structure EntryEvent (K : Type) where
  /-- The key of the entry. -/
  key : K
  /-- Its bytes, if the provider sends them along. -/
  payload : Option Bytes
  deriving DecidableEq, Repr

/-- What happened to the entries of one batch of events. -/
inductive EventKind where
  /-- They are new. -/
  | created
  /-- They have new bytes. -/
  | updated
  /-- They were removed. -/
  | removed
  /-- They expired. -/
  | expired
  deriving DecidableEq, Repr

/-- The event kind with a given name. -/
def EventKind.ofName? : String → Option EventKind
  | "created" => some created
  | "updated" => some updated
  | "removed" => some removed
  | "expired" => some expired
  | _ => none

/-- What the cache does about a batch of events: lines of the log, then calls of listeners. -/
structure Receipt (V : Type) where
  /-- The lines of the log. -/
  log : List LogEvent
  /-- The calls of listeners. -/
  calls : List (Delivery V)
  deriving DecidableEq, Repr

namespace Receipt

variable {K V : Type}

/-- Reads the payloads of events, leaving out those that hold no value. -/
def readPayloads (s : Serializer V) : List (EntryEvent K) → List V × List LogEvent
  | [] => ([], [])
  | e :: es =>
    let (value, log) := s.decode e.payload
    let (values, logs) := readPayloads s es
    (value.toList ++ values, log ++ logs)

/-- Hands the values of events to the listeners. Without listeners no payload is even read. -/
def forward (s : Serializer V) (listeners : Nat) (events : List (EntryEvent K))
    (reason : Reason) : Receipt V :=
  if listeners = 0 then ⟨[], []⟩
  else
    let (values, log) := readPayloads s events
    ⟨log, deliveries listeners (Batch.ofValues values reason)⟩

/-- What the cache does about a batch of events. -/
def ofEvents (s : Serializer V) (listeners : Nat) (kind : EventKind)
    (events : List (EntryEvent K)) : Receipt V :=
  match kind with
  | .created => ⟨[.created events.length], []⟩
  | .updated => ⟨[.updated events.length], []⟩
  | .removed => forward s listeners events .invalidated
  | .expired => forward s listeners events .expired

end Receipt

end GenerationalCache
