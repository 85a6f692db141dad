import GenerationalCache.Delivery
import GenerationalCache.LogEvent

/-!
# What an operation does, step by step

An operation of a cache is more than a function on its state: between two of its steps a listener
may call back into the cache, or a provider may report entries to it. So an operation is given as a
program, a sequence of actions each of which may depend on the answers to those before. An action
either changes the state of the cache at one instant, or asks something of the world around it: the
log, the listeners, the provider.

Who runs a program decides what happens inside an action. `Program.run` takes that decision as a
function from actions to state changes.
-/

namespace GenerationalCache

/-- Stored bytes. -/
abbrev Bytes : Type := List UInt8

/-- Names an open provider. -/
abbrev Handle : Type := Nat

/-- One step of an operation on a cache with state `σ`, keys `K` and values `V`; the last index is
the type of its answer. -/
inductive Action (σ K V : Type) : Type → Type 1 where
  /-- Reads and changes the state of the cache, with nothing in between. -/
  | access {β : Type} (change : σ → β × σ) : Action σ K V β
  /-- Writes a line of the log. -/
  | log (event : LogEvent) : Action σ K V Unit
  /-- Calls a listener. -/
  | notify (delivery : Delivery V) : Action σ K V Unit
  /-- Opens the provider. -/
  | openProvider : Action σ K V (Except CacheFailure Handle)
  /-- Asks the provider to report its entry changes to the cache. -/
  | register (handle : Handle) : Action σ K V (Except CacheFailure Unit)
  /-- Asks the provider for the bytes under a key. -/
  | get (handle : Handle) (key : K) : Action σ K V (Except CacheFailure (Option Bytes))
  /-- Asks the provider to store bytes under a key. -/
  | put (handle : Handle) (key : K) (bytes : Bytes) : Action σ K V (Except CacheFailure Unit)
  /-- Asks the provider to remove a key and to say whether it was there. -/
  | remove (handle : Handle) (key : K) : Action σ K V (Except CacheFailure Bool)
  /-- Asks the provider to remove every key. -/
  | removeAll (handle : Handle) : Action σ K V (Except CacheFailure Unit)

/-- A sequence of actions that ends with a result. -/
inductive Program (σ K V : Type) (α : Type) : Type 1 where
  /-- Nothing is left to do. -/
  | done (result : α) : Program σ K V α
  /-- First this action, then what its answer leads to. -/
  | step {β : Type} (action : Action σ K V β) (next : β → Program σ K V α) : Program σ K V α

namespace Program

variable {σ K V : Type} {α β : Type}

/-- One program after another. -/
def bind : Program σ K V α → (α → Program σ K V β) → Program σ K V β
  | done a, f => f a
  | step action next, f => step action fun b => (next b).bind f

instance : Monad (Program σ K V) where
  pure := done
  bind := bind

/-- The program of a single action. -/
def perform (action : Action σ K V α) : Program σ K V α := step action done

/-- Reads and changes the state of the cache. -/
def access (change : σ → α × σ) : Program σ K V α := perform (.access change)

/-- Reads the state of the cache. -/
def read (f : σ → α) : Program σ K V α := access fun s => (f s, s)

/-- Changes the state of the cache. -/
def update (f : σ → σ) : Program σ K V Unit := access fun s => ((), f s)

/-- Writes lines of the log. -/
def logAll : List LogEvent → Program σ K V Unit
  | [] => done ()
  | e :: es => step (.log e) fun _ => logAll es

/-- Makes the calls of listeners, one after the other. -/
def deliver : List (Delivery V) → Program σ K V Unit
  | [] => done ()
  | d :: ds => step (.notify d) fun _ => deliver ds

/-- Runs a program in a world with state `S`, where `act` says what an action does. -/
def run {S : Type} (act : {β : Type} → Action σ K V β → S → β × S) :
    Program σ K V α → S → α × S
  | done a, s => (a, s)
  | step action next, s =>
    let (answer, s') := act action s
    (next answer).run act s'

end Program

end GenerationalCache
