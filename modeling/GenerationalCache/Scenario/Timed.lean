import GenerationalCache.Builder
import GenerationalCache.Timing.Scheduler

/-!
# Timed scenarios

Short stories about the scheduler of a local cache of texts with one listener. Time is simulated: the
scheduler is woken exactly at its deadlines, and a tick takes no time. What is told of a story holds at
any speed.
-/

namespace GenerationalCache.Scenario

/-- A cache with its scheduler at one instant. -/
structure Clockwork where
  /-- The cache. -/
  cache : LocalCache String String
  /-- The scheduler, if one was started. -/
  scheduler : Option Scheduler
  /-- What the listener was told so far. -/
  told : List (Batch String) := []

namespace Clockwork

/-- A new cache with a timeout, and its scheduler. -/
def start (timeout : Duration) : Clockwork :=
  let builder := Builder.new.withTimeout timeout
  { cache := builder.build
    scheduler := builder.schedulerPeriod?.map fun period => .start period 0 }

/-- Whether the cache has a scheduler. -/
def scheduled (w : Clockwork) : Bool := w.scheduler.isSome

/-- Stores a value. -/
def insert (w : Clockwork) (key value : String) : Clockwork :=
  let (insertion, cache) := w.cache.insert key value
  { w with cache, told := w.told ++ insertion.batches }

/-- Sends a signal to the scheduler; a tick that it starts rotates the cache. -/
def signal (w : Clockwork) (signal : Scheduler.Signal) : Clockwork :=
  match w.scheduler with
  | none => w
  | some scheduler =>
    let w := { w with scheduler := some (scheduler.step signal) }
    if scheduler.startsTick signal then
      let (rotation, cache) := w.cache.rotate
      { w with cache, told := w.told ++ rotation.batches .expired }
    else w

/-- Lets the scheduler reach its deadline and run its tick. -/
def tick (w : Clockwork) : Clockwork :=
  let now := (w.scheduler.map Scheduler.deadline).getD 0
  (w.signal (.woken true)).signal (.tickEnded now true)

/-- Lets the scheduler run the ticks after which a key that nobody touches is gone. -/
def threeTicks (w : Clockwork) : Clockwork := w.tick.tick.tick

/-- Stops the scheduler and lets go of it. -/
def stop (w : Clockwork) : Clockwork :=
  { w.signal .stop with scheduler := none }

/-- Whether no generation has a key. -/
def isGone (w : Clockwork) (key : String) : Bool := (w.cache.tables.generationOf? key).isNone

end Clockwork

/-- The end of the story of a value that nobody touches. -/
structure Expiry where
  /-- Whether there was a scheduler. -/
  scheduled : Bool
  /-- Whether the key was swept out. -/
  gone : Bool
  /-- Whether there were at least three rotations. -/
  rotatedThrice : Bool
  /-- What the listener heard. -/
  told : List (Batch String)
  /-- How many keys were left. -/
  size : Nat
  /-- Whether there was a scheduler after the stop. -/
  scheduledAfterwards : Bool

/-- A value is stored, swept out by the scheduler, and the scheduler stopped. -/
def expiry (timeout : Duration) (key value : String) : Expiry :=
  let w := (Clockwork.start timeout).insert key value
  let swept := w.threeTicks
  let stopped := swept.stop
  { scheduled := w.scheduled
    gone := swept.isGone key
    rotatedThrice := decide (3 ≤ swept.cache.counters.rotations)
    told := stopped.told
    size := stopped.cache.tables.size
    scheduledAfterwards := stopped.scheduled }

/-- The end of the story of a placeholder that nobody touches. -/
structure PlaceholderExpiry where
  /-- What the lookup found. -/
  got : Option String
  /-- Whether the key was swept out. -/
  gone : Bool
  /-- How many values the rotations dropped. -/
  evicted : UInt64
  /-- What the listener heard. -/
  told : List (Batch String)

/-- A key is looked up in vain, and the placeholder swept out by the scheduler. -/
def placeholderExpiry (timeout : Duration) (key : String) : PlaceholderExpiry :=
  let w := Clockwork.start timeout
  let (found, cache) := w.cache.lookup key
  let swept := { w with cache }.threeTicks.stop
  { got := found.value
    gone := swept.isGone key
    evicted := swept.cache.counters.evictedByRotation
    told := swept.told }

/-- The end of the story of a stopped scheduler. -/
structure Stopping where
  /-- Whether there was a scheduler before the stop. -/
  scheduled : Bool
  /-- Whether there was one after it. -/
  scheduledAfterwards : Bool
  /-- Whether there was a rotation after the stop. -/
  rotated : Bool
  /-- The generation that the value is in at the end. -/
  generation : Option Generation
  /-- What the listener heard. -/
  told : List (Batch String)

/-- The scheduler is stopped, a value stored, and some time passes. -/
def stopping (timeout : Duration) (key value : String) : Stopping :=
  let w := Clockwork.start timeout
  let stopped := w.stop
  let later := (stopped.insert key value).threeTicks
  { scheduled := w.scheduled
    scheduledAfterwards := stopped.scheduled
    rotated := later.cache.counters.rotations != stopped.cache.counters.rotations
    generation := later.cache.tables.generationOf? key
    told := later.told }

/-- A value is stored and the cache dropped: tells whether a scheduler ran, and what the listener was
told. Values that are dropped with the cache are not evicted. -/
def dropping (timeout : Duration) (key value : String) : Bool × List (Batch String) :=
  let w := (Clockwork.start timeout).insert key value
  (w.scheduled, w.stop.told)

/-- A value is stored, and the cache dropped while the tick that sweeps it out calls the listener.
Tells what the listener is told in that call, and after it. -/
def droppingInTick (timeout : Duration) (key value : String) :
    Option (Batch String) × Option (Batch String) :=
  let w := (Clockwork.start timeout).insert key value
  let deadline := (w.scheduler.map Scheduler.deadline).getD 0
  let entered := w.tick.tick.signal (.woken true)
  let dropped := ((entered.signal .stop).signal (.tickEnded (3 * deadline) true)).signal
    (.woken true)
  (dropped.told[0]?, dropped.told[1]?)

end GenerationalCache.Scenario
