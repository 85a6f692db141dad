import GenerationalCache.Generation
import GenerationalCache.Scenario.Item
import GenerationalCache.Scenario.MemoryProvider

/-!
# Steps and answers

A scenario is a list of steps. Most of them are operations of the cache; others look at it, handle
named results, or make its provider act. A listener may react to a batch by steps of its own, which
may depend on the value they are a reaction to.
-/

namespace GenerationalCache.Scenario

/-- A value that a step stores. -/
inductive Input where
  /-- A content. -/
  | content (c : Content)
  /-- The result of a given name. -/
  | named (name : String)

/-- One step of a scenario. -/
inductive Step where
  /-- Gets a value. -/
  | get (key : String)
  /-- Looks an entry up and holds it under a name. -/
  | lookup (key name : String)
  /-- Shows a held entry. -/
  | entry (name : String)
  /-- Compares two held entries. -/
  | same (a b : String)
  /-- Stores a value. -/
  | insert (key : String) (value : Input)
  /-- Removes a key. -/
  | remove (key : String)
  /-- Removes every key. -/
  | clear
  /-- Rotates the generations. -/
  | rotate
  /-- Asks whether eviction is required. -/
  | evictionRequired
  /-- Asks for the number of keys. -/
  | size
  /-- Asks whether there are no keys. -/
  | isEmpty
  /-- Asks whether the scheduler runs. -/
  | hasScheduler
  /-- Stops the scheduler. -/
  | stopScheduler
  /-- Asks whether a provider keeps the entries. -/
  | isDistributed
  /-- Asks whether that provider is open. -/
  | isConnected
  /-- Asks for the generation of a key. -/
  | generation (key : String)
  /-- Asks for the number of keys in a generation. -/
  | generationSize (g : Generation)
  /-- Asks for the counters. -/
  | counters
  /-- Asks how the cache shows itself. -/
  | describe
  /-- Stores numbered texts under numbered keys. -/
  | fill (stem : String) (first last : Nat)
  /-- Gets numbered keys and counts those that have a value. -/
  | touch (stem : String) (first last : Nat)
  /-- Asks for the generations of numbered keys. -/
  | generations (stem : String) (first last : Nat)
  /-- Looks a key up several times at once. -/
  | racingLookups (key : String) (count : Nat)
  /-- Makes a result and gives it a name. -/
  | newResult (name : String) (subject : Subject)
  /-- Gets a result and gives it a name. -/
  | nameResult (name key : String)
  /-- Adds a lookup key to a named result. -/
  | addLookupKey (name key : String)
  /-- Shows the lookup keys of a named result. -/
  | lookupKeys (name : String)
  /-- Shows the subject of a named result. -/
  | resultSubject (name : String)
  /-- Shows a named result. -/
  | showResult (name : String)
  /-- Asks how a named result shows itself. -/
  | describeResult (name : String)
  /-- Removes every lookup key of a named result. -/
  | invalidateResult (name : String)
  /-- Puts bytes into the provider without a report. -/
  | providerSet (key : String) (bytes : Bytes)
  /-- Lets keys of the provider expire. -/
  | providerExpire (keys : List String)
  /-- Makes the provider report. -/
  | providerReport (report : Report)
  /-- Plans outcomes of calls of the provider. -/
  | providerPlan (call : ProviderCall) (outcomes : List Outcome)
  /-- Shows the provider. -/
  | providerState

/-- What a step answers. -/
inductive Answer where
  | nothing
  | flag (b : Bool)
  | count (n : Nat)
  | failure (f : CacheFailure)
  | value (content : Option Content)
  | entry (e : Entry Content)
  /-- Whether two entries are the same, and whether their values are, if both have one. -/
  | sameness (entry : Bool) (value : Option Bool)
  | generation (g : Option Generation)
  | generations (gs : List (Option Generation))
  | counters (c : Counters)
  | description (text : String)
  | keys (ks : List String)
  | content (c : Content)
  /-- Whether lookups made at once found the same entry, and the entry that the first one found. -/
  | racing (same : Bool) (first : Option (Entry Content))
  | provider (p : MemoryProvider)
  /-- The step names an entry or a result that does not exist. -/
  | unknownName

/-- What a listener does about batches of a given reason, or of any: steps for every value, which it
knows by its tag. -/
structure Reaction where
  /-- The reason, if it matters. -/
  reason : Option Reason
  /-- The steps for a value. -/
  steps : String → List Step

/-- A listener of a scenario. -/
structure ListenerScript where
  /-- Whether it only counts the values of a batch. -/
  countOnly : Bool
  /-- What it does about batches. -/
  reactions : List Reaction

/-- Something that happened during a step. -/
inductive Happening where
  /-- A listener was called. -/
  | called (delivery : Delivery Item)
  /-- A step of a listener's reaction was answered. -/
  | reacted (listener : Nat) (answer : Answer)

/-- A happening as it is shown once the step has ended. -/
inductive Event where
  | called (listener : Nat) (reason : Reason) (values : List Content)
  | counted (listener : Nat) (reason : Reason) (count : Nat)
  | reacted (listener : Nat) (answer : Answer)

/-- What is shown of a step. -/
structure StepReport where
  /-- Its answer. -/
  answer : Answer
  /-- What happened during it. -/
  events : List Event
  /-- The sizes of the generations after it. -/
  sizes : Sizes
  /-- The lines of the log written during it. -/
  log : List LogEvent

end GenerationalCache.Scenario
