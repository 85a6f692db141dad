import GenerationalCache.Builder
import GenerationalCache.Distributed.Operations
import GenerationalCache.Local.Operations
import GenerationalCache.Scenario.Session

/-!
# Setting a scenario up

A scenario runs on a local cache, made by a builder, or on a distributed cache with a provider in
memory and a serializer for the kind of values that the scenario caches.
-/

namespace GenerationalCache.Scenario

/-- The kinds of values that a scenario may cache. -/
inductive ValueKind where
  /-- Texts in the byte format. -/
  | text
  /-- Texts as their bare bytes. -/
  | bareText
  /-- Subjects. -/
  | subject
  /-- Authentication results. -/
  | result
  deriving DecidableEq, Repr

/-- Refuses a value of another kind than the cache holds. -/
def otherKind {α : Type} : Except CacheFailure α :=
  .error (.serialization "value of another kind")

/-- The serializer of a kind of values. -/
def ValueKind.serializer : ValueKind → Serializer Item
  | text => (Serializer.ofFormat Wire.Format.text).via (.own ∘ .text) fun
    | .own (.text s) => .ok s
    | _ => otherKind
  | bareText => Serializer.bareText.via (.own ∘ .text) fun
    | .own (.text s) => .ok s
    | _ => otherKind
  | subject => (Serializer.ofFormat Wire.Format.subject).via (.own ∘ .subject) fun
    | .own (.subject s) => .ok s
    | _ => otherKind
  | result =>
    (Serializer.ofFormat (Wire.Format.authResult Wire.Format.text)).via (.own ∘ .result) fun
    | .own (.result r) => .ok r
    | _ => otherKind

/-- What is shown of a scenario once all of its steps have run. -/
structure Summary where
  /-- What is shown of each step. -/
  steps : List StepReport
  /-- The counters at the end. -/
  counters : Counters
  /-- The generations of all named keys at the end. -/
  generations : List (String × Option Generation)
  /-- The provider at the end. -/
  provider : MemoryProvider

/-- Runs a scenario. -/
def summarize {σ : Type} (script : Script σ) (start : Session σ) (steps : List Step) : Summary :=
  let (shown, s) := start.reports script steps
  { steps := shown
    counters := script.operations.counters s.cache
    generations := s.namedGenerations script
    provider := s.provider }

/-- Runs a scenario on a local cache. -/
def runLocal (builder : Builder) (listeners : List ListenerScript) (depth : Nat)
    (steps : List Step) : Summary :=
  let script : Script (LocalCache String Item) :=
    { operations := LocalCache.operations listeners.length
      receive := fun _ => ⟨[], []⟩
      listeners
      depth }
  summarize script { cache := builder.build, scheduled := builder.schedulerPeriod?.isSome } steps

/-- Runs a scenario on a distributed cache. -/
def runDistributed (kind : ValueKind) (provider : MemoryProvider)
    (listeners : List ListenerScript) (depth : Nat) (steps : List Step) : Summary :=
  let serializer := kind.serializer
  let script : Script Connection :=
    { operations := Connection.operations serializer listeners.length
      receive := fun r => Receipt.ofEvents serializer listeners.length r.kind r.events
      listeners
      depth }
  summarize script { cache := {}, scheduled := false, provider } steps

end GenerationalCache.Scenario
