import GenerationalCache.Distributed.Adapter
import Std.Data.TreeMap

/-!
# A provider in memory

A provider for scenarios. It keeps bytes by key, reports every change at once and as one batch, and
can be told to fail: each kind of call has a queue of outcomes, of which every call takes one, and
goes through when there is none.
-/

namespace GenerationalCache.Scenario

/-- The kinds of calls of a provider. -/
inductive ProviderCall where
  | opening
  | registering
  | get
  | put
  | remove
  | removeAll
  deriving DecidableEq, Repr

namespace ProviderCall

/-- The kinds of calls. -/
def all : List ProviderCall := [opening, registering, get, put, remove, removeAll]

/-- The name of a kind of call. -/
def name : ProviderCall → String
  | opening => "open"
  | registering => "register"
  | get => "get"
  | put => "put"
  | remove => "remove"
  | removeAll => "remove_all"

/-- The kind of call with a given name. -/
def ofName? (text : String) : Option ProviderCall := all.find? fun c => c.name == text

end ProviderCall

/-- What becomes of a call. -/
inductive Outcome where
  /-- It goes through. -/
  | pass
  /-- It fails and does nothing. -/
  | fail (failure : CacheFailure)
  /-- A registration that is made and then reported as failed; any other call just fails. -/
  | failAfterwards (failure : CacheFailure)
  deriving DecidableEq, Repr

/-- The failure of a call, if it fails. -/
def Outcome.failure? : Outcome → Option CacheFailure
  | pass => none
  | fail failure | failAfterwards failure => some failure

/-- A batch of events of one kind. -/
structure Report where
  /-- What happened. -/
  kind : EventKind
  /-- The entries it happened to. -/
  events : List (EntryEvent String)

/-- The state of a provider. -/
structure MemoryProvider where
  /-- The stored bytes. -/
  entries : Std.TreeMap String Bytes := ∅
  /-- How many times the cache is registered for reports. -/
  registrations : Nat := 0
  /-- The outcomes of calls to come, those of each kind in order. -/
  outcomes : List (ProviderCall × Outcome) := []
  /-- The calls that were made, the last one first. -/
  calls : List ProviderCall := []
  /-- Whether a registration is answered by a report that removes every entry. -/
  replay : Bool := false

namespace MemoryProvider

/-- Takes the first outcome of a kind of call out of a queue. -/
def takeOutcome (call : ProviderCall) :
    List (ProviderCall × Outcome) → Outcome × List (ProviderCall × Outcome)
  | [] => (.pass, [])
  | o :: os =>
    if o.1 = call then (o.2, os)
    else
      let (found, rest) := takeOutcome call os
      (found, o :: rest)

/-- Begins a call: it is counted, and its outcome taken. -/
def begin (p : MemoryProvider) (call : ProviderCall) : Outcome × MemoryProvider :=
  let (outcome, outcomes) := takeOutcome call p.outcomes
  (outcome, { p with outcomes, calls := call :: p.calls })

/-- Adds outcomes for calls to come. -/
def plan (p : MemoryProvider) (call : ProviderCall) (outcomes : List Outcome) : MemoryProvider :=
  { p with outcomes := p.outcomes ++ outcomes.map fun o => (call, o) }

/-- Stores bytes without a report. -/
def set (p : MemoryProvider) (key : String) (bytes : Bytes) : MemoryProvider :=
  { p with entries := p.entries.insert key bytes }

/-- Stores bytes. -/
def put (p : MemoryProvider) (key : String) (bytes : Bytes) : Report × MemoryProvider :=
  let kind : EventKind := if p.entries.contains key then .updated else .created
  (⟨kind, [⟨key, some bytes⟩]⟩, p.set key bytes)

/-- Removes a key; the report is missing when there is no such key. -/
def remove (p : MemoryProvider) (key : String) : Option Report × MemoryProvider :=
  match p.entries[key]? with
  | none => (none, p)
  | some bytes =>
    (some ⟨.removed, [⟨key, some bytes⟩]⟩, { p with entries := p.entries.erase key })

/-- The report that removes every entry; it is missing when there is none. -/
def removalOfAll (p : MemoryProvider) : Option Report :=
  if p.entries.isEmpty then none
  else some ⟨.removed, p.entries.toList.map fun e => ⟨e.1, some e.2⟩⟩

/-- Removes every key. -/
def removeAll (p : MemoryProvider) : Option Report × MemoryProvider :=
  (p.removalOfAll, { p with entries := ∅ })

/-- Lets keys expire, and reports those that were there. -/
def expire (p : MemoryProvider) (keys : List String) : Report × MemoryProvider :=
  let (events, entries) := keys.foldl
    (fun (events, entries) key =>
      match entries[key]? with
      | none => (events, entries)
      | some bytes => (⟨key, some bytes⟩ :: events, entries.erase key))
    (([] : List (EntryEvent String)), p.entries)
  (⟨.expired, events.reverse⟩, { p with entries })

/-- How often each kind of call was made, kinds that were never called left out. -/
def callCounts (p : MemoryProvider) : List (ProviderCall × Nat) :=
  (ProviderCall.all.map fun c => (c, p.calls.count c)).filter fun c => 0 < c.2

end MemoryProvider

end GenerationalCache.Scenario
